import ContractAnalysis.CommandLine
import ContractAnalysis.Proofs.Codec.WireFormat
import ContractAnalysis.Proofs.Report.Range

/-!
# The ways to an analysis

A text is analysed from the command line, by a direct run, and by the service. All three make the
same report of it, which is read off what the command prints and off the body of the answer; and a
request that asks for no review gets what a service without a reviewer would answer
(`front_ends_agree`).

* `parse_json`: what the arguments `--json` and the name of a text file ask for
* `AnalystIn.run_alone`: a run without a reviewer has no effects
-/

namespace ContractAnalysis

/-! ## The command line -/

/-- The name of a text file, which is no switch. -/
structure IsTextFile (name : String) : Prop where
  extension : Text.lowercaseChars ((extension? name.toList).getD []) = "txt".toList
  noSwitch : name.toList.head? ≠ some '-'

theorem IsTextFile.ne {name other : String} (h : IsTextFile name)
    (hother : Text.lowercaseChars ((extension? other.toList).getD []) ≠ "txt".toList) :
    name ≠ other := by
  rintro rfl
  exact hother h.extension

namespace Invocation

theorem addArgument_file {name : String} (h : name.toList.head? ≠ some '-') (reading : Reading)
    (place : Place) : addArgument place reading name = addFile reading name := by
  unfold addArgument
  split
  case h_1 hname => exact absurd (by rw [hname]; rfl) h
  case h_2 hname => exact absurd (by rw [hname]; rfl) h
  case h_3 => rfl

theorem parseProgram_argument {argument : String} (hdash : argument ≠ "--")
    (hanalyze : argument ≠ "analyze") (hhelp : argument ≠ "help") {reading next : Reading}
    (hread : addArgument .program reading argument = .ok next) (rest : List String) :
    parseProgram reading (argument :: rest) = parseProgram next rest := by
  rw [parseProgram, hread]
  · rfl
  · exact hdash
  · exact hanalyze
  · exact hhelp

theorem parse_json {name : String} (h : IsTextFile name) :
    parse ["--json", name] = .analyze { json := true } (some name) := by
  have hempty : name ≠ "" := h.ne (by decide)
  have hjson : addArgument .program {} "--json" = .ok { options := { json := true } } := by rfl
  have hfile : addArgument .program { options := { json := true } } name =
      .ok { options := { json := true }, file := some name } := addArgument_file h.noSwitch _ _
  have hfinish : finishProgram { options := { json := true }, file := some name } =
      .ok (.analyze { json := true } (some name)) := by
    simp [finishProgram, settle, hempty]
  rw [parse, parseProgram_argument (by decide) (by decide) (by decide) hjson,
    parseProgram_argument (h.ne (by decide)) (h.ne (by decide)) (h.ne (by decide)) hfile,
    parseProgram, hfinish]

end Invocation

theorem fromUTF8?_toUTF8 (text : String) : String.fromUTF8? text.toUTF8 = some text :=
  dif_pos text.isValidUTF8

theorem Document.load_text {contents : Contents} {name text : String} (hname : IsTextFile name)
    (h : contents.bytes name = .ok text.toUTF8) : Document.load contents name = .ok ⟨name, text⟩ := by
  simp only [Document.load, hname.extension, h, if_true, Except.mapError, bind, Except.bind,
    fromUTF8?_toUTF8]

/-! ## Runs without a reviewer -/

section

variable {m : Type → Type}

theorem AnalystIn.for_alone (rules : List FactRule) (aiReview : Bool) :
    AnalystIn.for (m := m) ⟨rules, none⟩ aiReview = ⟨rules, none⟩ := by
  cases aiReview <;> rfl

variable [Monad m]

theorem respondIn_analyze {request : ServiceRequest}
    (hpath : request.path = "/api/analyze".toList) (analyst : AnalystIn m) (stamp : Stamp) :
    respondIn analyst stamp request =
      if request.method = "POST" then postReply analyst stamp request else pure ⟨405, .none⟩ := by
  have hhealth : request.path ≠ "/api/health".toList := by
    rw [hpath]
    decide
  rw [respondIn, if_neg hhealth, if_pos hpath]

variable [LawfulMonad m]

theorem AnalystIn.run_alone (rules : List FactRule) (stamp : Stamp) (document : Document) :
    AnalystIn.run (m := m) ⟨rules, none⟩ stamp document =
      pure (Analyst.run ⟨rules, none⟩ stamp document) := by
  cases h : compile rules document with
  | error failure => simp [Analyst.run, AnalystIn.run, h]
  | ok contract => simp [Analyst.run, AnalystIn.run, AnalystIn.report, AnalystIn.added, h]

/-- The answer to a request for an analysis that no reviewer takes part in. -/
def aloneReply (rules : List FactRule) (stamp : Stamp) (request : AnalyzeRequest) : ServiceReply :=
  if Text.isBlankText request.text then errorReply 400 "text must not be empty"
  else outcomeReply (Analyst.run ⟨rules, none⟩ stamp ⟨request.sourceName, request.text⟩)

theorem analyzeReply_alone {analyst : AnalystIn m} {rules : List FactRule}
    {request : AnalyzeRequest} (h : analyst.for request.aiReview = ⟨rules, none⟩) (stamp : Stamp) :
    analyzeReply analyst stamp request = pure (aloneReply rules stamp request) := by
  unfold analyzeReply aloneReply
  split_ifs
  · rfl
  · rw [h, AnalystIn.run_alone, map_pure]

theorem postReply_alone {analyst : AnalystIn m} {rules : List FactRule} {request : ServiceRequest}
    {analyze : AnalyzeRequest} (hbody : AnalyzeRequest.ofText request.body = .ok analyze)
    (h : analyst.for analyze.aiReview = ⟨rules, none⟩) (stamp : Stamp) :
    postReply analyst stamp request =
      pure (if !saysJson request then ⟨415, .none⟩
        else if request.body.utf8ByteSize > greatestBodySize then ⟨413, .none⟩
        else aloneReply rules stamp analyze) := by
  unfold postReply
  split_ifs
  · rfl
  · rfl
  · rw [hbody]
    exact analyzeReply_alone h stamp

/-- A reviewer that is not asked for might as well not be there. -/
theorem respondIn_optOut {request : ServiceRequest} {analyze : AnalyzeRequest}
    (hpath : request.path = "/api/analyze".toList)
    (hbody : AnalyzeRequest.ofText request.body = .ok analyze) (hreview : analyze.aiReview = false)
    (rules : List FactRule) (reviewer : ReviewerIn m) (stamp : Stamp) :
    respondIn ⟨rules, some reviewer⟩ stamp request =
      pure (respond ⟨rules, none⟩ stamp request) := by
  have hfor : AnalystIn.for ⟨rules, some reviewer⟩ analyze.aiReview = ⟨rules, none⟩ := by
    rw [hreview]
    rfl
  -- The two analysts come down to the same rules alone.
  rw [respond, respondIn_analyze hpath, respondIn_analyze hpath]
  split_ifs
  · rw [postReply_alone hbody hfor, postReply_alone hbody (AnalystIn.for_alone rules _)]
    rfl
  · rfl

end

/-! ## Three ways -/

/-- The request asks for an analysis, and its body is within the limit. -/
structure ServiceRequest.Posts (request : ServiceRequest) (analyze : AnalyzeRequest) : Prop where
  path : request.path = "/api/analyze".toList
  method : request.method = "POST"
  json : saysJson request = true
  size : request.body.utf8ByteSize ≤ greatestBodySize
  body : AnalyzeRequest.ofText request.body = .ok analyze

theorem respond_posts {request : ServiceRequest} {analyze : AnalyzeRequest}
    (h : request.Posts analyze) (rules : List FactRule) (stamp : Stamp) :
    respond ⟨rules, none⟩ stamp request = aloneReply rules stamp analyze := by
  rw [respond, respondIn_analyze h.path, if_pos h.method,
    postReply_alone h.body (AnalystIn.for_alone rules _)]
  have hsize : ¬request.body.utf8ByteSize > greatestBodySize := not_lt.mpr h.size
  simp [h.json, hsize]

/-- A text is made the same report at any time, and the report is read back from JSON. -/
theorem exists_report (document : Document) :
    ∃ report : Report,
      (∀ stamp, Analyst.run {} stamp document = .ok ⟨{ report with stamp }, none⟩) ∧
      ∀ stamp : Stamp, stamp.generatedAt.Exact → document.content.length + 1 < Nat.pow 2 32 →
        report.findings.length < Nat.pow 2 64 → { report with stamp }.Portable := by
  obtain ⟨contract, hcompile, -⟩ :=
    compile_eq_ok (fun _ => FactRule.keepsId_of_mem_standard) document
  refine ⟨(AnalystIn.report (m := Id) {} .zero document contract).run.report, fun stamp => ?_,
    fun stamp hstamp htext hcount => ?_⟩
  · exact Analyst.run_of_compile hcompile
  · exact portable_report (CompiledContract.portable htext hcompile) hstamp document.source
      (List.forall_mem_nil _) hcount

theorem runCommand_json {name text : String} (hname : IsTextFile name) {settings : Settings}
    (hsettings : settings.reviewEnabled = false) {contents : Contents}
    (hcontents : contents.bytes name = .ok text.toUTF8) (transport : Transport) {stamp : Stamp}
    {report : Report} (hrun : Analyst.run {} stamp ⟨name, text⟩ = .ok ⟨report, none⟩) :
    runCommand ["--json", name] settings contents transport stamp =
      { exit := 0, output := .report true report } := by
  have hanalyst : Analyst.ofSettings settings transport = .ok {} := by
    rw [Analyst.ofSettings, hsettings]
    rfl
  have hfile :
      analyzeFile { json := true } settings contents transport stamp name = .ok report := by
    simp only [analyzeFile, hanalyst, Document.load_text hname hcontents, hrun, bind, Except.bind,
      pure, Except.pure, Bool.false_eq_true, if_false]
  simp only [runCommand, Invocation.parse_json hname, hfile]

/-- **The ways to an analysis agree**: the command without a key, a run and the service without a
reviewer make one report. It is read off what the command prints and off the body of the answer if
its numbers have the bits of their fields, as they do for a text of less than four billion
characters whose findings are counted in 64 bits. And with a reviewer that may have any effects, a request without review is
answered without effects, as if there were no reviewer. -/
theorem front_ends_agree :
    (∀ name text, IsTextFile name → Text.isBlankText text = false →
      ∃ report : Report,
        (∀ settings contents transport stamp, settings.reviewEnabled = false →
          contents.bytes name = .ok text.toUTF8 →
          let result := runCommand ["--json", name] settings contents transport stamp
          result.exit = 0 ∧ result.stdout = { report with stamp }.json ++ "\n" ∧
          ({ report with stamp }.Portable →
            Report.decoder.decodeText result.stdout = some { report with stamp })) ∧
        (∀ stamp, Analyst.run {} stamp ⟨name, text⟩ = .ok ⟨{ report with stamp }, none⟩) ∧
        (∀ request aiReview stamp, request.Posts ⟨name, text, aiReview⟩ →
          let reply := respond {} stamp request
          reply = ⟨200, .report { report with stamp }⟩ ∧
          ({ report with stamp }.Portable → ∃ body, reply.content.text? = some body ∧
            Report.decoder.decodeText body = some { report with stamp })) ∧
        ∀ stamp : Stamp, stamp.generatedAt.Exact → text.length + 1 < Nat.pow 2 32 →
          report.findings.length < Nat.pow 2 64 → { report with stamp }.Portable) ∧
    ∀ (m : Type → Type) [Monad m] [LawfulMonad m] (rules : List FactRule)
      (reviewer : ReviewerIn m) (stamp : Stamp) (request : ServiceRequest)
      (analyze : AnalyzeRequest), request.path = "/api/analyze".toList →
      AnalyzeRequest.ofText request.body = .ok analyze → analyze.aiReview = false →
      respondIn ⟨rules, some reviewer⟩ stamp request =
        pure (respond ⟨rules, none⟩ stamp request) := by
  refine ⟨fun name text hname htext => ?_, ?_⟩
  · obtain ⟨report, hrun, hportable⟩ := exists_report ⟨name, text⟩
    refine ⟨report, ?_, hrun, ?_, hportable⟩
    · intro settings contents transport stamp hsettings hcontents result
      have hresult : result = { exit := 0, output := .report true { report with stamp } } :=
        runCommand_json hname hsettings hcontents transport (hrun stamp)
      rw [hresult]
      exact ⟨rfl, rfl, Report.lossless.decodeText_line (by decide)⟩
    · intro request aiReview stamp hposts reply
      have hreply : reply = ⟨200, .report { report with stamp }⟩ := by
        have halone := respond_posts hposts FactRule.standard stamp
        rw [aloneReply, if_neg (by simp [htext])] at halone
        exact halone.trans (congrArg outcomeReply (hrun stamp))
      rw [hreply]
      exact ⟨rfl, fun h => ⟨_, rfl, (Report.lossless.roundTrips (by decide)).compact _ h⟩⟩
  · intro m _ _ rules reviewer stamp request analyze hpath hbody hreview
    exact respondIn_optOut hpath hbody hreview rules reviewer stamp

/-- The body of a request in JSON, with the content type of JSON. -/
def leaseRequest : ServiceRequest where
  method := "POST"
  path := "/api/analyze".toList
  contentType := some "application/json"
  body := (AnalyzeRequest.toJson ⟨"lease.txt", "The Tenant shall pay.", false⟩).compact

theorem front_ends_agree_lease :
    (∃ report : Report,
      Report.decoder.decodeText (runCommand ["--json", "lease.txt"] {}
        { bytes := fun _ => .ok "The Tenant shall pay.".toUTF8 } .unreachable .zero).stdout =
          some { report with stamp := .zero } ∧
      ∃ body, (respond {} .zero leaseRequest).content.text? = some body ∧
        Report.decoder.decodeText body = some { report with stamp := .zero }) ∧
    respondIn (m := StateM Nat)
        ⟨FactRule.standard, some fun _ => do modify (· + 1); return .ok []⟩ .zero leaseRequest =
      pure (respond ⟨FactRule.standard, none⟩ .zero leaseRequest) := by
  have hname : IsTextFile "lease.txt" := ⟨by decide, by decide⟩
  have hblank : Text.isBlankText "The Tenant shall pay." = false := by decide
  have hbody : AnalyzeRequest.ofText leaseRequest.body =
      .ok ⟨"lease.txt", "The Tenant shall pay.", false⟩ := AnalyzeRequest.ofText_compact _
  have hposts : leaseRequest.Posts ⟨"lease.txt", "The Tenant shall pay.", false⟩ :=
    ⟨rfl, rfl, by decide, by decide, hbody⟩
  obtain ⟨report, hcommand, hrun, hservice, hportable⟩ := front_ends_agree.1 _ _ hname hblank
  have hcount : report.findings.length = 1 := by
    have hlength : (Analyst.run {} .zero ⟨"lease.txt", "The Tenant shall pay."⟩).toOption.map
        (fun outcome => outcome.report.findings.length) = some 1 := by
      decide +kernel
    rw [hrun .zero] at hlength
    exact Option.some.inj hlength
  have hread : { report with stamp := .zero }.Portable :=
    hportable .zero ⟨by decide, by decide⟩ (by decide) (hcount ▸ by decide)
  refine ⟨⟨report, ?_, ?_⟩, ?_⟩
  · exact (hcommand {} _ .unreachable .zero (by decide) rfl).2.2 hread
  · exact (hservice _ _ .zero hposts).2 hread
  · exact front_ends_agree.2 _ _ _ _ _ _ rfl hbody rfl

end ContractAnalysis
