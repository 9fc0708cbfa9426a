import ContractAnalysis.Proofs.Codec.Report
import ContractAnalysis.Proofs.Detection.Lines
import ContractAnalysis.Proofs.Framing
import ContractAnalysis.Proofs.Json.Kept

/-!
# What comes of a reply

Whatever a model replies, the findings that are read from it are in normal form
(`Finding.Reviewed`). Where the reply lists entries, each entry is judged by itself
(`findingsOfReply_of_lists`): it gives one finding if it shows the parts of an entry and names a
grade, and none otherwise, whatever the entries around it are (`reply_reviewed`).

* `Lists`: the replies that list some values as their entries
* `Value.part?`, `ReplyEntry.IsShownBy`: the parts of a value, and the values that show an entry
-/

namespace ContractAnalysis

open Json Text

/-! ## Normal form -/

/-- A finding as it comes of a reply: the lines ascend, a label that is kept does not spell a known
kind in another case or with white space around it, and a recommendation is not blank. -/
structure Finding.Reviewed (f : Finding) : Prop where
  origin : f.origin = .ai
  lines : f.lines.Pairwise (· < ·)
  defect : ∀ label, f.defect = .other label →
    ∀ kind : KnownDefect, lowercase (trim label) ≠ kind.label
  recommendation : ∀ text ∈ f.recommendation, ¬IsBlankText text.toList

theorem Defect.Settled.ne_label {defect : Defect} (h : defect.Settled) {label : String}
    (hlabel : defect = .other label) (kind : KnownDefect) :
    lowercase (trim label) ≠ kind.label := by
  intro hspelled
  have hnone := h label hlabel
  rw [KnownDefect.ofText?, List.find?_eq_none] at hnone
  exact hnone kind (by cases kind <;> decide) (beq_iff_eq.mpr hspelled.symm)

theorem ReplyEntry.reviewed_of_finding? {entry : ReplyEntry} {f : Finding}
    (h : entry.finding? = some f) : f.Reviewed := by
  unfold finding? at h
  obtain ⟨severity, -, rfl⟩ := Option.map_eq_some_iff.mp h
  refine ⟨rfl, pairwise_ascending entry.lines, fun label hlabel => ?_, fun text htext hblank => ?_⟩
  · simp only at hlabel
    exact (Defect.settled_ofLabel entry.type).ne_label hlabel
  · simp only at htext
    obtain ⟨-, hkept⟩ := Option.mem_filter_iff.mp htext
    have hfilled : isBlankText text = false := by simpa using hkept
    exact Bool.false_ne_true (hfilled.symm.trans (List.all_eq_true.mpr hblank))

theorem reviewed_of_mem_findingsOfReply {reply : String} {f : Finding}
    (h : f ∈ findingsOfReply reply) : f.Reviewed := by
  unfold findingsOfReply at h
  split at h
  · obtain ⟨value, -, hvalue⟩ := List.mem_filterMap.mp h
    unfold findingOfEntry? at hvalue
    obtain ⟨entry, -, hentry⟩ := Option.bind_eq_some_iff.mp hvalue
    exact entry.reviewed_of_finding? hentry
  · exact absurd h List.not_mem_nil

/-! ## Parts of an entry -/

/-- The parts of an entry, in the order in which an array lists them. -/
def ReplyEntry.parts : List String :=
  ["type", "severity", "description", "involved_clauses", "lines", "recommendation"]

/-- The part of a value with a name: the last field with that name, or the item in its place. -/
def Json.Value.part? : Value → String → Option Value
  | .object fields, name => fields.reverse.lookup name
  | .array items, name => (ReplyEntry.parts.zip items).lookup name
  | _, _ => none

/-- A value shows an entry: it has the parts of the entry, where lists and the recommendation may be
left out, and no more items than there are parts if it is an array. -/
structure ReplyEntry.IsShownBy (entry : ReplyEntry) (v : Value) : Prop where
  sized : ∀ items, v = .array items → items.length ≤ ReplyEntry.parts.length
  type : v.part? "type" = some (.string entry.type)
  severity : v.part? "severity" = some (.string entry.severity)
  description : v.part? "description" = some (.string entry.description)
  involved : (v.part? "involved_clauses").getD (.array []) = .strings entry.involved
  lines : (v.part? "lines").getD (.array []) = .array (entry.lines.map .natural)
  fit : ∀ line ∈ entry.lines, line < Nat.pow 2 32
  recommendation : (v.part? "recommendation").getD .null = .stringOrNull entry.recommendation

/-! ## Reading an entry -/

namespace ReplyEntry

/-- A decoder is given the parts of a value. -/
def Gives (given : List (String × Source)) (v : Value) : Prop :=
  ∀ name ∈ parts, given.lookup name = (v.part? name).map fun part => part.kept.toSource

theorem exists_gives_object (fields : List (String × Value)) (needed depth : Nat) :
    ∃ given, Decoder.fields parts needed (depth + 1) (Value.object fields).kept.toSource =
      some ⟨depth, given⟩ ∧ Gives given (.object fields) := by
  let once := (Value.keptFields fields).foldl Decoder.putLast []
  have honce : (once.map Prod.fst).Nodup := nodup_foldl_putLast _
  have hspells : (Value.object once).toSource.Spells parts _ := Value.spells once (honce.filter _)
  have hfields := Decoder.record_of_spells hspells needed some depth
  rw [Decoder.record, Option.bind_fun_some] at hfields
  refine ⟨_, hfields, fun name hname => ?_⟩
  rw [Decoder.lookup_taken hname, lookup_map, lookup_foldl_putLast, Value.keptFields_eq,
    ← List.map_reverse, lookup_map, Option.map_map]
  rfl

theorem exists_gives_array {items : List Value} {needed : Nat} (depth : Nat)
    (hneeded : needed ≤ items.length) (hsized : items.length ≤ parts.length) :
    ∃ given, Decoder.fields parts needed (depth + 1) (Value.array items).kept.toSource =
      some ⟨depth, given⟩ ∧ Gives given (.array items) := by
  have hfields : Decoder.fields parts needed (depth + 1) (Value.array items).kept.toSource =
      some ⟨depth, parts.zip (items.map fun item => item.kept.toSource)⟩ := by
    simp [Value.kept, Value.toSource, Value.keptItems_eq, Value.itemsToSource_eq, Decoder.fields,
      hneeded, hsized, Function.comp_def]
  refine ⟨_, hfields, fun name _ => ?_⟩
  rw [List.zip_map_right]
  exact lookup_map (fun item => item.kept.toSource) (parts.zip items) name

section

variable {α : Type} {decoder : Decoder α} {least depth : Nat} {encode : α → Value}
  {Portable : α → Prop} {given : List (String × Source)} {v : Value} {name : String}

theorem Gives.required_iff (h : Gives given v) (hname : name ∈ parts)
    (hdecoder : decoder.Recognizes least encode Portable) (hdepth : least ≤ depth) {a : α} :
    (⟨depth, given⟩ : Decoder.Fields).required name decoder = some a ↔
      v.part? name = some (encode a) ∧ Portable a := by
  rw [Decoder.Fields.required, h name hname]
  cases v.part? name with
  | none => simp
  | some part => simpa using hdecoder depth hdepth part a

theorem Gives.withDefault_iff (h : Gives given v) (hname : name ∈ parts)
    (hdecoder : decoder.Recognizes least encode Portable) (hdepth : least ≤ depth)
    {default a : α} (hdefault : Portable default) :
    (⟨depth, given⟩ : Decoder.Fields).withDefault name decoder default = some a ↔
      (v.part? name).getD (encode default) = encode a ∧ Portable a := by
  rw [Decoder.Fields.withDefault, h name hname]
  cases v.part? name with
  | none =>
    have hread := (hdecoder depth hdepth (encode default) default).mpr ⟨rfl, hdefault⟩
    simpa [hread] using hdecoder depth hdepth (encode default) a
  | some part => simpa using hdecoder depth hdepth part a

end

theorem decodeValue_iff_of_gives {given : List (String × Source)} {v : Value}
    (hsized : ∀ items, v = .array items → items.length ≤ parts.length)
    (hfields : Decoder.fields parts 3 Decoder.maxDepth v.kept.toSource = some ⟨126, given⟩)
    (hgives : Gives given v) (entry : ReplyEntry) :
    decoder.decodeValue v.kept = some entry ↔ entry.IsShownBy v := by
  let read : Decoder.Fields := ⟨126, given⟩
  have hstring {name : String} (hname : name ∈ parts) (s : String) :
      read.required name Decoder.string = some s ↔ v.part? name = some (.string s) ∧ True :=
    hgives.required_iff hname Decoder.Recognizes.string (Nat.zero_le _)
  have hstrings (ss : List String) :
      read.withDefault "involved_clauses" (Decoder.list Decoder.string) [] = some ss ↔ _ :=
    hgives.withDefault_iff (by decide) Decoder.Recognizes.string.list (by decide) (by simp)
  have hlines (ns : List Nat) :
      read.withDefault "lines" (Decoder.list (Decoder.natural (Nat.pow 2 32))) [] = some ns ↔ _ :=
    hgives.withDefault_iff (by decide) (Decoder.Recognizes.natural (Nat.pow 2 32)).list
      (by decide) (by simp)
  have hrecommendation (s : Option String) :
      read.withDefault "recommendation" (Decoder.nullable .string) none = some s ↔ _ :=
    hgives.withDefault_iff (by decide) Decoder.Recognizes.stringOrNull (Nat.zero_le _) trivial
  unfold Decoder.decodeValue decoder Decoder.record
  change ((Decoder.fields parts 3 Decoder.maxDepth v.kept.toSource).bind _) = _ ↔ _
  rw [hfields]
  simp only [Option.bind_eq_bind, Option.bind_some, Option.bind_eq_some_iff, Option.pure_def,
    Decoder.Fields.optional]
  constructor
  · rintro ⟨type, htype, severity, hseverity, description, hdescription, involved, hinvolved, lines,
      hgiven, recommendation, hrecommended, heq⟩
    obtain rfl := Option.some.inj heq
    exact {
      sized := hsized
      type := ((hstring (by decide) type).mp htype).1
      severity := ((hstring (by decide) severity).mp hseverity).1
      description := ((hstring (by decide) description).mp hdescription).1
      involved := ((hstrings involved).mp hinvolved).1
      lines := ((hlines lines).mp hgiven).1
      fit := ((hlines lines).mp hgiven).2
      recommendation := ((hrecommendation recommendation).mp hrecommended).1 }
  · intro h
    exact ⟨_, (hstring (by decide) _).mpr ⟨h.type, trivial⟩,
      _, (hstring (by decide) _).mpr ⟨h.severity, trivial⟩,
      _, (hstring (by decide) _).mpr ⟨h.description, trivial⟩,
      _, (hstrings _).mpr ⟨h.involved, by simp⟩, _, (hlines _).mpr ⟨h.lines, h.fit⟩,
      _, (hrecommendation _).mpr ⟨h.recommendation, trivial⟩, rfl⟩

/-- An entry is read off what is kept of exactly the values that show it. -/
theorem decodeValue_kept_iff (entry : ReplyEntry) (v : Value) :
    decoder.decodeValue v.kept = some entry ↔ entry.IsShownBy v := by
  cases v with
  | object fields =>
    obtain ⟨given, hfields, hgives⟩ := exists_gives_object fields 3 126
    exact decodeValue_iff_of_gives (fun _ h => by contradiction) hfields hgives entry
  | array items =>
    by_cases hsized : 3 ≤ items.length ∧ items.length ≤ parts.length
    · obtain ⟨given, hfields, hgives⟩ := exists_gives_array 126 hsized.1 hsized.2
      refine decodeValue_iff_of_gives (fun _ h => ?_) hfields hgives entry
      exact Value.array.inj h ▸ hsized.2
    · refine iff_of_false ?_ fun h => hsized ⟨?_, h.sized items rfl⟩
      · have hlength : ¬(3 ≤ items.length ∧ items.length ≤ 6) := hsized
        simp [Decoder.decodeValue, decoder, Decoder.record, Decoder.fields, Decoder.maxDepth,
          Value.kept, Value.toSource, Value.keptItems_eq, Value.itemsToSource_eq, hlength]
      · have hdescription := h.description
        rcases items with _ | ⟨_, _ | ⟨_, _ | ⟨_, rest⟩⟩⟩
        · simp [Value.part?] at hdescription
        · simp [Value.part?, parts, Decoder.Fields.lookup_cons_eq_ite] at hdescription
        · simp [Value.part?, parts, Decoder.Fields.lookup_cons_eq_ite] at hdescription
        · simp
  | _ =>
    refine iff_of_false ?_ fun h => absurd h.type (by simp [Value.part?])
    simp [Decoder.decodeValue, decoder, Decoder.record, Decoder.fields, Decoder.maxDepth,
      Value.kept, Value.toSource]

end ReplyEntry

/-! ## Replies that list entries -/

/-- A value that a reply may list: its numbers are read as they are written, and it is not nested
too deep inside the object and the array around it. -/
structure Json.Value.Listable (v : Value) : Prop where
  legible : v.Legible
  nests : v.Nests 125

/-- A reply lists some values as its entries, in any layout, perhaps with white space or a fence
around it. -/
def Lists (reply : String) (entries : List Value) : Prop :=
  ∃ layout : Layout, Framed ((Value.object [("anomalies", .array entries)]).write layout 0)
    reply.toList

theorem isBraced_write_object (layout : Layout) (level : Nat) (fields : List (String × Value)) :
    IsBraced ((Value.object fields).write layout level) := by
  rw [Value.write]
  split_ifs
  · exact ⟨rfl, rfl⟩
  · refine ⟨rfl, ?_⟩
    rw [← List.append_assoc, ← List.cons_append, List.getLast?_concat]

theorem IsBraced.trimChars_eq {cs : List Char} (h : IsBraced cs) : trimChars cs = cs := by
  obtain ⟨rest, hrest⟩ := List.head?_eq_some_iff.mp h.1
  have hstart : trimStart cs = cs := by
    rw [hrest]
    exact List.dropWhile_cons_of_neg (by decide +kernel)
  have hend : trimEnd cs = cs := by
    simpa [trimEnd] using trimEnd_append h.2 (by decide +kernel) []
  rw [trimChars, hstart, hend]

theorem replyDecoder_of_write (layout : Layout) {text : String} {entries : List Value}
    (htext : text.toList = (Value.object [("anomalies", .array entries)]).write layout 0)
    (hentries : ∀ v ∈ entries, v.Listable) :
    replyDecoder.decodeText text = some (entries.map Value.kept) := by
  have hlegible : (Value.object [("anomalies", .array entries)]).Legible := by
    refine .object fun field hfield => ?_
    rw [List.mem_singleton.mp hfield]
    exact .array fun v hv => (hentries v hv).legible
  have hlist : Decoder.list Decoder.value 126 (Value.array entries).toSource =
      some (entries.map Value.kept) := by
    rw [Value.toSource, Decoder.list, Value.itemsToSource_eq, List.mapM_map]
    exact mapM_eq_some_map fun v hv => Decoder.value_toSource (hentries v hv).nests
  rw [Decoder.decodeText, Value.read_write hlegible layout htext]
  simp only [if_true]
  rw [replyDecoder, Decoder.maxDepth, Decoder.record_object (by simp) (by simp), List.map_singleton,
    Decoder.Fields.withDefault_cons, if_pos rfl, hlist]

/-- The finding that a value gives where a reply lists it. -/
def findingOfValue? (v : Value) : Option Finding := findingOfEntry? v.kept

theorem findingsOfReply_of_lists {reply : String} {entries : List Value}
    (h : Lists reply entries) (hentries : ∀ v ∈ entries, v.Listable) :
    findingsOfReply reply = entries.filterMap findingOfValue? := by
  obtain ⟨layout, hframed⟩ := h
  have hbraced := isBraced_write_object layout 0 [("anomalies", .array entries)]
  have hunfenced : unfenced reply.toList =
      (Value.object [("anomalies", .array entries)]).write layout 0 := by
    have htrimmed := hbraced.trimChars_eq.symm ▸ hbraced
    rw [unfenced_of_framed htrimmed hframed, unfenced_of_isBraced htrimmed, hbraced.trimChars_eq]
  have hread := replyDecoder_of_write layout String.toList_ofList hentries
  unfold findingsOfReply
  rw [hunfenced, hread]
  exact List.filterMap_map

theorem findingOfValue?_eq_some {entry : ReplyEntry} {v : Value} (hshown : entry.IsShownBy v)
    {severity : Severity} (hseverity : Severity.ofText? entry.severity = some severity) :
    ∃ f, findingOfValue? v = some f ∧ f.severity = severity ∧
      ∀ line, line ∈ f.lines ↔ line ∈ entry.lines := by
  unfold findingOfValue? findingOfEntry?
  rw [(entry.decodeValue_kept_iff v).mpr hshown, Option.bind_some, ReplyEntry.finding?, hseverity]
  exact ⟨_, rfl, rfl, fun _ => mem_ascending⟩

theorem findingOfValue?_eq_none {v : Value}
    (h : ∀ entry : ReplyEntry, entry.IsShownBy v → Severity.ofText? entry.severity = none) :
    findingOfValue? v = none := by
  unfold findingOfValue? findingOfEntry?
  refine Option.bind_eq_none_iff.mpr fun entry hentry => ?_
  rw [ReplyEntry.finding?, h entry ((entry.decodeValue_kept_iff v).mp hentry), Option.map_none]

/-- **A reply gives findings in normal form, and each of its entries is judged by itself.** Entries
behind others give their findings behind those of the others. A value that shows no entry with a
known grade changes nothing, wherever it stands; one that does gives one finding in its place, with
exactly the lines of the entry. -/
theorem reply_reviewed :
    (∀ reply, ∀ f ∈ findingsOfReply reply, f.Reviewed) ∧
    (∀ xs ys : List Value, (∀ v ∈ xs ++ ys, v.Listable) → ∀ reply before after,
      Lists reply (xs ++ ys) → Lists before xs → Lists after ys →
      findingsOfReply reply = findingsOfReply before ++ findingsOfReply after) ∧
    (∀ (xs : List Value) (v : Value) (ys : List Value), (∀ w ∈ xs ++ v :: ys, w.Listable) →
      (∀ entry : ReplyEntry, entry.IsShownBy v → Severity.ofText? entry.severity = none) →
      ∀ reply others, Lists reply (xs ++ v :: ys) → Lists others (xs ++ ys) →
      findingsOfReply reply = findingsOfReply others) ∧
    (∀ (xs : List Value) (v : Value) (ys : List Value), (∀ w ∈ xs ++ v :: ys, w.Listable) →
      ∀ (entry : ReplyEntry) (severity : Severity), entry.IsShownBy v →
      Severity.ofText? entry.severity = some severity →
      ∀ reply before after, Lists reply (xs ++ v :: ys) → Lists before xs → Lists after ys →
      ∃ f, findingsOfReply reply = findingsOfReply before ++ f :: findingsOfReply after ∧
        f.severity = severity ∧ ∀ line, line ∈ f.lines ↔ line ∈ entry.lines) := by
  refine ⟨fun _ _ => reviewed_of_mem_findingsOfReply,
    fun xs ys hlistable reply before after hreply hbefore hafter => ?joined,
    fun xs v ys hlistable hnone reply others hreply hothers => ?passedOver,
    fun xs v ys hlistable entry severity hshown hseverity reply before after hreply hbefore
      hafter => ?kept⟩
  case joined =>
    obtain ⟨hxs, hys⟩ := List.forall_mem_append.mp hlistable
    rw [findingsOfReply_of_lists hreply hlistable, findingsOfReply_of_lists hbefore hxs,
      findingsOfReply_of_lists hafter hys, List.filterMap_append]
  case passedOver =>
    have hrest : ∀ w ∈ xs ++ ys, w.Listable := fun w hw =>
      hlistable w (List.mem_append.mpr ((List.mem_append.mp hw).imp_right (List.mem_cons_of_mem v)))
    rw [findingsOfReply_of_lists hreply hlistable, findingsOfReply_of_lists hothers hrest,
      List.filterMap_append, List.filterMap_append,
      List.filterMap_cons_none (findingOfValue?_eq_none hnone)]
  case kept =>
    obtain ⟨hxs, hys⟩ := List.forall_mem_append.mp hlistable
    obtain ⟨f, hf, hgrade, hlines⟩ := findingOfValue?_eq_some hshown hseverity
    refine ⟨f, ?_, hgrade, hlines⟩
    rw [findingsOfReply_of_lists hreply hlistable, findingsOfReply_of_lists hbefore hxs,
      findingsOfReply_of_lists hafter (List.forall_mem_cons.mp hys).2, List.filterMap_append,
      List.filterMap_cons_some hf]

/-- Between what shows no entry and what names no grade, an entry that gives a line twice. -/
theorem reply_reviewed_deposit :
    let gap : Value := .object [("type", .string " Hidden_Implications "),
      ("severity", .string "high"), ("description", .string "No deposit."),
      ("lines", .array [.natural 7, .natural 3, .natural 7]), ("recommendation", .string " ")]
    let fragment : Value := .array [.null]
    let ungraded : Value := .array [.string "other", .string "urgent", .string "Who pays?"]
    let reply (entries : List Value) := (Value.object [("anomalies", .array entries)]).compact
    ∃ f, findingsOfReply (reply [fragment, gap, ungraded]) = [f] ∧ f.severity = .high ∧
      f.Reviewed ∧ ∀ line, line ∈ f.lines ↔ line ∈ [7, 3, 7] := by
  intro gap fragment ungraded reply
  let entry : ReplyEntry :=
    ⟨" Hidden_Implications ", "high", "No deposit.", [], [7, 3, 7], some " "⟩
  have hlists : ∀ entries, Lists (reply entries) entries := fun entries =>
    ⟨.compact, .bare (Value.compact_eq_write _ 0 ▸ Pads.refl _)⟩
  have hnumber : ∀ n < Nat.pow 2 64, (Value.natural n).Legible := fun n hn =>
    (Value.Plain.natural hn).legible
  have hgap : gap.Listable := by
    have hlines : (Value.array [.natural 7, .natural 3, .natural 7]).Nests 124 :=
      .array (by simp [Value.natural, Value.Nests.number])
    exact ⟨.object (by simp [Value.Legible.string, Value.Legible.array, hnumber]),
      .object (by simp [Value.Nests.string, hlines])⟩
  have hfragment : fragment.Listable :=
    ⟨.array (by simp [Value.Legible.null]), .array (by simp [Value.Nests.null])⟩
  have hungraded : ungraded.Listable :=
    ⟨.array (by simp [Value.Legible.string]), .array (by simp [Value.Nests.string])⟩
  have hshown : entry.IsShownBy gap := by
    refine ⟨fun _ h => by contradiction, ?_, ?_, ?_, ?_, ?_, by decide, ?_⟩
    all_goals
      simp [gap, entry, Value.part?, Decoder.Fields.lookup_cons_eq_ite, Value.strings,
        Value.stringOrNull]
  have hnoEntry : ∀ other : ReplyEntry, ¬other.IsShownBy fragment := by
    intro other h
    simpa [fragment, Value.part?, ReplyEntry.parts, Decoder.Fields.lookup_cons_eq_ite] using h.type
  have hnoGrade : ∀ other : ReplyEntry, other.IsShownBy ungraded →
      Severity.ofText? other.severity = none := by
    intro other h
    have hseverity : "urgent" = other.severity := by
      simpa [ungraded, Value.part?, ReplyEntry.parts, Decoder.Fields.lookup_cons_eq_ite]
        using h.severity
    rw [← hseverity]
    decide +kernel
  obtain ⟨hreviewed, -, hpassed, hkept⟩ := reply_reviewed
  have hnothing : findingsOfReply (reply []) = [] := by decide +kernel
  obtain ⟨f, hf, hgrade, hlines⟩ := hkept [] gap [] (by simpa using hgap) entry .high hshown
    (by decide +kernel) _ _ _ (hlists [gap]) (hlists []) (hlists [])
  rw [hnothing, List.nil_append] at hf
  have hfront := hpassed [] fragment [gap, ungraded] (by simp [hfragment, hgap, hungraded])
    (fun other h => absurd h (hnoEntry other)) _ _ (hlists _) (hlists _)
  have hend := hpassed [gap] ungraded [] (by simp [hgap, hungraded]) hnoGrade _ _ (hlists _)
    (hlists _)
  exact ⟨f, hfront.trans (hend.trans hf), hgrade, hreviewed _ f (hf ▸ List.mem_singleton_self f),
    hlines⟩

end ContractAnalysis
