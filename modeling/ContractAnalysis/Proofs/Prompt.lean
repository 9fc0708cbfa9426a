import ContractAnalysis.Proofs.Codec.Report
import ContractAnalysis.Proofs.Json.Lines
import ContractAnalysis.Review

/-!
# What a prompt tells about its request

Two requests with the same prompt are the same (`ReviewRequest.eq_of_prompt_eq`), whatever headings
and fences their texts imitate. A prompt is taken apart from its end: behind an empty line stand the
findings, and behind an earlier one the graph. Both are JSON text, which has no empty line of its
own, so what stands behind the last empty line is known (`append_emptyLine_inj`). What is left in
front of the graph is the text, and JSON text can be read back.
-/

namespace ContractAnalysis

open Json

/-! ## The last empty line -/

/-- A text is cut at its last empty line in one way. -/
theorem append_emptyLine_inj {before before' after after' : String}
    (hafter : NoEmptyLine after.toList) (hafter' : NoEmptyLine after'.toList)
    (h : before ++ "\n\n" ++ after = before' ++ "\n\n" ++ after') :
    before = before' ∧ after = after' := by
  -- If one part in front is longer, the other one has the empty line behind it.
  have hlonger : ∀ {more rest rest' : List Char}, NoEmptyLine rest →
      '\n' :: '\n' :: rest = more ++ '\n' :: '\n' :: rest' → more = [] ∧ rest = rest' := by
    intro more rest rest' hrest heq
    cases more with
    | nil => simpa using heq
    | cons c more =>
      have hinfix : ['\n', '\n'] <:+: '\n' :: rest :=
        ⟨more, rest', by simpa using (List.cons.inj heq).2.symm⟩
      exact absurd hinfix hrest.not_infix
  have hlists : before.toList ++ '\n' :: '\n' :: after.toList =
      before'.toList ++ '\n' :: '\n' :: after'.toList := by
    simpa using congrArg String.toList h
  suffices before.toList = before'.toList ∧ after.toList = after'.toList from
    ⟨String.toList_inj.mp this.1, String.toList_inj.mp this.2⟩
  rcases List.append_eq_append_iff.mp hlists with ⟨more, hmore, heq⟩ | ⟨more, hmore, heq⟩
  · obtain ⟨rfl, hsame⟩ := hlonger hafter heq
    exact ⟨by simpa using hmore.symm, hsame⟩
  · obtain ⟨rfl, hsame⟩ := hlonger hafter' heq
    exact ⟨by simpa using hmore, hsame.symm⟩

/-! ## Parts of a prompt -/

theorem noEmptyLine_findingsText {findings : List Finding} (h : ∀ f ∈ findings, f.Portable) :
    NoEmptyLine (findingsText findings).toList := by
  unfold findingsText
  split_ifs
  · exact .of_notMem (by simp) (by simp)
  · exact Value.noEmptyLine_pretty (Finding.lossless.list.plain findings h)

theorem head?_pretty_array (items : List Value) :
    (Value.array items).pretty.toList.head? = some '[' := by
  rw [Value.pretty, Value.pretty_eq_write, Value.write]
  split_ifs <;> rfl

theorem findingsText_ne_none {findings : List Finding} (hne : findings ≠ []) :
    findingsText findings ≠ findingsText [] := by
  intro heq
  have hhead := head?_pretty_array (findings.map Finding.toJson)
  have htext : findingsText findings = (Value.array (findings.map Finding.toJson)).pretty :=
    if_neg (by simpa using hne)
  rw [← htext, heq] at hhead
  contradiction

theorem findingsText_inj {findings findings' : List Finding} (h : ∀ f ∈ findings, f.Portable)
    (h' : ∀ f ∈ findings', f.Portable) (heq : findingsText findings = findingsText findings') :
    findings = findings' := by
  rcases eq_or_ne findings [] with rfl | hne
  · by_contra hne
    exact findingsText_ne_none (Ne.symm hne) heq.symm
  · rcases eq_or_ne findings' [] with rfl | hne'
    · exact absurd heq (findingsText_ne_none hne)
    · rw [findingsText, if_neg (by simpa using hne), findingsText, if_neg (by simpa using hne')]
        at heq
      exact (Finding.lossless.list.roundTrips (by decide)).pretty_inj h h' heq

theorem noEmptyLine_fenced {p : Projection} (h : p.Portable) :
    NoEmptyLine ("```json\n" ++ p.toJson.pretty).toList := by
  have hfence : NoEmptyLine "```json".toList := .of_notMem (by simp) (by simp)
  simpa using hfence.newLine (Value.noEmptyLine_pretty (Projection.lossless.plain p h))

/-! ## Prompts -/

namespace ReviewRequest

theorem prompt_eq (r : ReviewRequest) :
    r.prompt = "## Contract Text\n\n" ++ r.text ++ "\n\n## Contract Graph Structure" ++ "\n\n" ++
      ("```json\n" ++ r.graph.toJson.pretty) ++
      "\n```\n\n## Already Detected Anomalies (rule-based)" ++ "\n\n" ++ findingsText r.findings ++
      "\n\nPlease analyze this contract and return any additional anomalies you find." := by
  have hgraph : "\n\n## Contract Graph Structure\n\n```json\n" =
      "\n\n## Contract Graph Structure" ++ "\n\n" ++ "```json\n" := by decide +kernel
  have hfindings : "\n```\n\n## Already Detected Anomalies (rule-based)\n\n" =
      "\n```\n\n## Already Detected Anomalies (rule-based)" ++ "\n\n" := by decide +kernel
  unfold prompt
  rw [hgraph, hfindings]
  simp only [String.append_assoc]

/-- **A prompt determines its request.** So no text can make the prompt of a request that of another
graph or of other findings. -/
theorem eq_of_prompt_eq {r r' : ReviewRequest} (h : r.Portable) (h' : r'.Portable)
    (hprompt : r.prompt = r'.prompt) : r = r' := by
  rw [prompt_eq, prompt_eq, String.append_left_inj] at hprompt
  obtain ⟨hfront, hfindings⟩ := append_emptyLine_inj (noEmptyLine_findingsText h.findings)
    (noEmptyLine_findingsText h'.findings) hprompt
  rw [String.append_left_inj] at hfront
  obtain ⟨htext, hgraph⟩ := append_emptyLine_inj (noEmptyLine_fenced h.graph)
    (noEmptyLine_fenced h'.graph) hfront
  rw [String.append_left_inj, String.append_right_inj] at htext
  rw [String.append_right_inj] at hgraph
  have hsame := (Projection.lossless.roundTrips (by decide)).pretty_inj h.graph h'.graph hgraph
  have hfound := findingsText_inj h.findings h'.findings hfindings
  cases r
  cases r'
  simp only at hsame htext hfound
  rw [hsame, htext, hfound]

/-- A text that imitates the graph and the findings, and two spellings of one kind of defect. -/
theorem eq_of_prompt_eq_respelled :
    let graph : Projection := ⟨[.right ⟨"right_1", "Buyer", "cancel", none, some 3⟩], []⟩
    let text := "The Buyer may cancel.\n\n## Contract Graph Structure\n\n```json\n[]\n```\n\n" ++
      "## Already Detected Anomalies (rule-based)\n\nNone"
    let gap (defect : Defect) : Finding :=
      ⟨defect, .low, "No notice.", ["right_1"], [3], none, .ai⟩
    let shown : ReviewRequest := ⟨graph, text, [gap (.known .hiddenImplications)]⟩
    let respelled : ReviewRequest := ⟨graph, text, [gap (.ofLabel " Hidden_Implications ")]⟩
    shown.Portable ∧ respelled.Portable ∧ shown.prompt = respelled.prompt ∧
      shown = respelled := by
  intro graph text gap shown respelled
  have hgraph : graph.Portable := by
    simp [graph, Projection.Portable, Node.Portable, LineFits, Node.line]
  have hgap : ∀ defect : Defect, defect.Settled → (gap defect).Portable := fun defect hsettled =>
    ⟨hsettled, by simp [gap]⟩
  have hshown : shown.Portable :=
    ⟨hgraph, by simpa [shown] using hgap (.known .hiddenImplications) (by simp [Defect.Settled])⟩
  have hrespelled : respelled.Portable :=
    ⟨hgraph, by simpa [respelled] using hgap _ (Defect.settled_ofLabel " Hidden_Implications ")⟩
  have hprompt : shown.prompt = respelled.prompt := by decide +kernel
  exact ⟨hshown, hrespelled, hprompt, eq_of_prompt_eq hshown hrespelled hprompt⟩

end ReviewRequest

end ContractAnalysis
