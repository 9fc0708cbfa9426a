import ContractAnalysis.Proofs.Codec.Message
import ContractAnalysis.Proofs.Text.Lines

/-!
# What may surround a reply

A model that is asked for a JSON object may put white space around it or a fence, and may send it in
pieces. The object is found in all of these (`unfenced_of_framed`): white space around a reply is
trimmed; in front of a fenced object there is no opening brace and behind it no closing one, so the
first and the last brace of the reply are the ends of the object, whatever it holds. Since the
pieces are put together before the fence is looked for, it does not matter where they are cut. So a
review answers with the findings of the object (`ReviewModel.review_framed`), and it fails where
there is no message.

* `IsBraced`: the texts that an object may be, in correct JSON or not
* `Framed`: a reply and what may surround it
-/

namespace ContractAnalysis

open Json Text

/-- From an opening brace to a closing one. -/
def IsBraced (cs : List Char) : Prop := cs.head? = some '\x7b' ∧ cs.getLast? = some '\x7d'

/-- A reply as a model may send it: with white space around it, perhaps in a fence. The line that
opens the fence may go on, but not with an opening brace; what closes it is any text without a
closing brace. -/
inductive Framed (reply : List Char) : List Char → Prop where
  | bare {framed : List Char} (padded : Pads reply framed) : Framed reply framed
  | fenced {opener closing framed : List Char} (opening : '\x7b' ∉ opener)
      (ending : '\x7d' ∉ closing) (padded : Pads (fence ++ opener ++ reply ++ closing) framed) :
      Framed reply framed

/-! ## Between braces -/

theorem findIdx?_append_cons {p : Char → Bool} {before : List Char}
    (hbefore : ∀ c ∈ before, p c = false) {c : Char} (hc : p c = true) (rest : List Char) :
    (before ++ c :: rest).findIdx? p = some before.length := by
  rw [List.findIdx?_append, List.findIdx?_eq_none_iff.mpr hbefore, Option.none_or,
    List.findIdx?_cons, if_pos hc, Option.map_some, Nat.zero_add]

theorem betweenBraces_eq {before cs after : List Char} (hbraced : IsBraced cs)
    (hbefore : '\x7b' ∉ before) (hafter : '\x7d' ∉ after) :
    betweenBraces (before ++ cs ++ after) = cs := by
  obtain ⟨rest, hrest⟩ := List.head?_eq_some_iff.mp hbraced.1
  obtain ⟨init, hinit⟩ := List.getLast?_eq_some_iff.mp hbraced.2
  have hstart : (before ++ cs ++ after).findIdx? (· == '\x7b') = some before.length := by
    rw [List.append_assoc, hrest, List.cons_append]
    refine findIdx?_append_cons (fun c hc => ?_) rfl _
    exact beq_eq_false_iff_ne.mpr fun heq => hbefore (heq ▸ hc)
  have hstop : (before ++ cs ++ after).reverse.findIdx? (· == '\x7d') = some after.length := by
    rw [List.reverse_append, List.reverse_append, hinit, List.reverse_concat, List.cons_append,
      ← List.length_reverse]
    refine findIdx?_append_cons (fun c hc => ?_) rfl _
    exact beq_eq_false_iff_ne.mpr fun heq => hafter (heq ▸ List.mem_reverse.mp hc)
  have hlength : (before ++ cs ++ after).length - after.length = (before ++ cs).length := by
    rw [List.length_append, Nat.add_sub_cancel]
  simp only [betweenBraces, hstart, hstop, hlength, Option.getD_some, List.take_left']
  rw [if_pos (by rw [List.length_append]; exact Nat.le_add_right _ _), List.drop_left]

/-! ## Trimming and the fence -/

theorem trimEnd_append {cs : List Char} {c : Char} (hlast : cs.getLast? = some c)
    (hc : isBlank c = false) (rest : List Char) : trimEnd (cs ++ rest) = cs ++ trimEnd rest := by
  obtain ⟨init, rfl⟩ := List.getLast?_eq_some_iff.mp hlast
  rw [trimEnd, trimEnd, List.reverse_append, List.dropWhile_append]
  split_ifs with hempty
  · rw [List.isEmpty_iff.mp hempty, List.reverse_concat, List.dropWhile_cons_of_neg (by simp [hc])]
    simp
  · simp

theorem IsBraced.trimChars_fence_append {cs : List Char} (h : IsBraced cs)
    (before after : List Char) :
    trimChars (fence ++ before ++ cs ++ after) = fence ++ before ++ cs ++ trimEnd after := by
  have hstart : ∀ rest, trimStart (fence ++ rest) = fence ++ rest := fun rest =>
    List.dropWhile_cons_of_neg (by decide +kernel)
  have hlast : (fence ++ before ++ cs).getLast? = some '\x7d' := by
    rw [List.getLast?_append, h.2, Option.some_or]
  rw [trimChars, List.append_assoc, List.append_assoc, hstart, ← List.append_assoc,
    ← List.append_assoc, trimEnd_append hlast (by decide +kernel)]

/-- A fence is taken off a trimmed reply with everything before its first opening brace and behind
its last closing brace. -/
theorem IsBraced.unfenced_fence_append {before cs after : List Char} (h : IsBraced cs)
    (hbefore : '\x7b' ∉ before) (hafter : '\x7d' ∉ after) :
    unfenced (fence ++ before ++ cs ++ after) = cs := by
  have hfence : fence.isPrefixOf (fence ++ before ++ cs ++ trimEnd after) = true := by
    rw [List.isPrefixOf_iff_prefix, List.append_assoc, List.append_assoc]
    exact List.prefix_append _ _
  have hopening : '\x7b' ∉ fence ++ before := by
    rw [List.mem_append, not_or]
    exact ⟨by decide, hbefore⟩
  obtain ⟨blanks, hblanks, -⟩ := exists_trimEnd_append after
  have hending : '\x7d' ∉ trimEnd after := fun hmem =>
    hafter (hblanks ▸ List.mem_append_left blanks hmem)
  rw [unfenced, h.trimChars_fence_append, if_pos hfence, betweenBraces_eq h hopening hending]

theorem unfenced_of_isBraced {reply : List Char} (h : IsBraced (trimChars reply)) :
    unfenced reply = trimChars reply := by
  obtain ⟨rest, hrest⟩ := List.head?_eq_some_iff.mp h.1
  have hfence : fence.isPrefixOf (trimChars reply) = false := by
    rw [hrest]
    rfl
  simp only [unfenced, hfence, Bool.false_eq_true, if_false]

theorem not_mem_of_isBlankText {cs : List Char} (h : IsBlankText cs) {c : Char}
    (hc : isBlank c = false) : c ∉ cs := fun hmem => by
  rw [h c hmem] at hc
  contradiction

theorem unfenced_of_framed {reply framed : List Char} (hbraced : IsBraced (trimChars reply))
    (h : Framed reply framed) : unfenced framed = unfenced reply := by
  rw [unfenced_of_isBraced hbraced]
  cases h with
  | bare padded =>
    rw [unfenced, ← padded.trimChars_eq, ← unfenced, unfenced_of_isBraced hbraced]
  | @fenced opener closing _ opening ending padded =>
    -- The white space around the reply goes with what the fence puts around it.
    obtain ⟨before, after, hreply, hbefore, hafter⟩ := pads_trimChars reply
    have hopening : '\x7b' ∉ opener ++ before := by
      rw [List.mem_append, not_or]
      exact ⟨opening, not_mem_of_isBlankText hbefore (by decide +kernel)⟩
    have hending : '\x7d' ∉ after ++ closing := by
      rw [List.mem_append, not_or]
      exact ⟨not_mem_of_isBlankText hafter (by decide +kernel), ending⟩
    have hsplit : fence ++ opener ++ reply ++ closing =
        fence ++ (opener ++ before) ++ trimChars reply ++ (after ++ closing) := by
      conv_lhs => rw [hreply]
      simp only [List.append_assoc]
    rw [unfenced, ← padded.trimChars_eq, ← unfenced, hsplit,
      hbraced.unfenced_fence_append hopening hending]

/-! ## Reviews -/

namespace ReviewModel

theorem review_eq_map {model : ReviewModel} {transport : Transport} {shown : ReviewRequest}
    {answer : HttpReply} (hkey : isHeaderText model.apiKey = true)
    (hanswer : transport (model.request shown.prompt) = some answer) :
    model.review transport shown = (replyOfAnswer answer).map findingsOfReply := by
  have hrequest : model.exchangeRequest shown = .ok (model.request shown.prompt) := by
    rw [exchangeRequest, if_pos hkey]
  simp only [review, hrequest, bind, Except.bind, hanswer]
  cases replyOfAnswer answer <;> rfl

/-- A review against an answer of success that carries a reply, framed and in pieces, answers with
the findings of the reply alone. It fails where the answer is no success or no message. -/
theorem review_framed (model : ReviewModel) (transport : Transport) (shown : ReviewRequest)
    (answer : HttpReply) (hkey : isHeaderText model.apiKey = true)
    (hanswer : transport (model.request shown.prompt) = some answer) :
    (200 ≤ answer.status ∧ answer.status < 300 → ∀ parts (reply : String),
      Carries answer.body parts → IsBraced (trimChars reply.toList) →
      Framed reply.toList (String.join (parts.map MessagePart.piece)).toList →
      model.review transport shown = .ok (findingsOfReply reply)) ∧
    (answer.status < 200 ∨ 300 ≤ answer.status ∨ messageDecoder.decodeText answer.body = none →
      ∃ text, model.review transport shown = .error (.review text)) := by
  rw [review_eq_map hkey hanswer, replyOfAnswer]
  constructor
  · rintro ⟨hlow, hhigh⟩ parts reply hcarries hbraced hframed
    have hstatus : ¬(answer.status < 200 ∨ 300 ≤ answer.status) := by omega
    have hfindings : findingsOfReply (String.join (parts.map MessagePart.piece)) =
        findingsOfReply reply := by
      simp only [findingsOfReply, unfenced_of_framed hbraced hframed]
    rw [if_neg hstatus, messageDecoder_of_carries hcarries, ← hfindings, ← replyText_map_block]
    rfl
  · intro hfail
    split_ifs with hstatus
    · exact ⟨_, rfl⟩
    · have hbody : messageDecoder.decodeText answer.body = none :=
        (or_assoc.mpr hfail).resolve_left hstatus
      rw [hbody]
      exact ⟨_, rfl⟩

/-- A reply in a fence, cut within a word, with a closing brace in a text. -/
theorem review_framed_pieces :
    let model : ReviewModel := ⟨"key", "model", 1024⟩
    let shown : ReviewRequest := ⟨⟨[], []⟩, "The Tenant shall pay.", []⟩
    let start := "\x7b\"anomalies\": [\x7b\"type\": \"hidden_"
    let rest := "implications\", \"severity\": \"low\", \"description\": \"A stray \x7d.\"\x7d]\x7d"
    let body := Value.compact <| .object [("id", .string "msg"),
      ("content", .array [
        .object [("type", .string "text"), ("text", .string ("```json\n" ++ start))],
        .object [("type", .string "thinking"), ("thinking", .string "Let me see.")],
        .object [("text", .string (rest ++ "\n```\n")), ("type", .string "text")]]),
      ("stop_reason", .string "end_turn")]
    model.review (fun _ => some ⟨200, body⟩) shown = .ok (findingsOfReply (start ++ rest)) ∧
    (findingsOfReply (start ++ rest)).map (·.description) = ["A stray \x7d."] ∧
    ∃ text, model.review (fun _ => some ⟨529, body⟩) shown = .error (.review text) := by
  intro model shown start rest body
  let parts : List MessagePart :=
    [.text ("```json\n" ++ start), .other "thinking", .text (rest ++ "\n```\n")]
  have hcarries : Carries body parts := by
    refine ⟨_, _, _, Value.read_compact (.object ?_), Value.spells _ (by decide), rfl, ?_, ?_⟩
    · simp [Value.Plain.array, Value.Plain.object]
    · intro reason hreason
      exact .inr ⟨_, (Option.some.inj hreason).symm⟩
    · exact .cons (.text (Value.spells _ (by decide)) rfl rfl)
        (.cons (.other (Value.spells _ (by decide)) rfl (by decide) rfl)
          (.cons (.text (Value.spells _ (by decide)) rfl rfl) .nil))
  have hbraced : IsBraced (trimChars (start ++ rest).toList) :=
    ⟨by decide +kernel, by decide +kernel⟩
  have hframed :
      Framed (start ++ rest).toList (String.join (parts.map MessagePart.piece)).toList := by
    have hpads : Pads (fence ++ "json\n".toList ++ (start ++ rest).toList ++ "\n```".toList)
        (String.join (parts.map MessagePart.piece)).toList :=
      ⟨[], ['\n'], by decide +kernel, by simp [IsBlankText],
        by simp [IsBlankText]; decide +kernel⟩
    exact .fenced (by decide) (by decide) hpads
  refine ⟨?_, by decide +kernel, ?_⟩
  · exact (review_framed model _ shown ⟨200, body⟩ (by decide) rfl).1 ⟨by decide, by decide⟩
      parts _ hcarries hbraced hframed
  · exact (review_framed model _ shown ⟨529, body⟩ (by decide) rfl).2 (by decide)

end ReviewModel

end ContractAnalysis
