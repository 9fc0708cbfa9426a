import ContractAnalysis.Codec.Node
import ContractAnalysis.Proofs.Codec.Basic

/-!
# Clauses, facts and graphs through JSON

A clause or a fact is a record of texts, numbers and one list. A node is such a record with its kind
in front, which is taken out again before the record is read (`Node.decoder_tagged`).

* `Node.lossless`, `Edge.lossless`, `Projection.lossless`
-/

namespace ContractAnalysis

open Json

/-- A line number of 32 bits, or none. -/
def LineFits (line : Option Nat) : Prop := ∀ n ∈ line, n < Nat.pow 2 32

theorem lineFits_of_optional {fields : Decoder.Fields} {name : String} {line : Option Nat}
    (h : fields.optional name .natural32 = some line) : LineFits line :=
  Lossless.naturalOrNull.portable.withDefault (fun _ hn => by contradiction) h

def Clause.Portable (c : Clause) : Prop := c.level < Nat.pow 2 32 ∧ LineFits c.line

theorem Clause.lossless : Lossless Clause.toJson Clause.decoder 1 Clause.Portable := by
  refine .record (by decide) (fun c => .refl _) (fun c hc => ?_) (fun c hc d _ => ?_)
    (fun fields c h => ?_)
  · have hlevel := Lossless.natural32.plain c.level hc.1
    have hline := Lossless.naturalOrNull.plain c.line hc.2
    simp [Clause.fields, hlevel, hline]
  · have hlevel := Lossless.natural32.decodes c.level hc.1 d d.zero_le
    have hline := Lossless.naturalOrNull.decodes c.line hc.2 d d.zero_le
    simp [Clause.fields, hlevel, hline]
  · simp only [Option.bind_eq_bind, Option.bind_eq_some_iff] at h
    obtain ⟨_, _, _, _, _, _, _, _, level, hlevel, _, _, line, hline, hc⟩ := h
    rw [← Option.some.inj hc]
    exact ⟨Lossless.natural32.portable.required hlevel, lineFits_of_optional hline⟩

theorem Obligation.lossless :
    Lossless Obligation.toJson Obligation.decoder 1 fun o => LineFits o.line := by
  refine .record (by decide) (fun o => .refl _) (fun o ho => ?_) (fun o ho d _ => ?_)
    (fun fields o h => ?_)
  · have hline := Lossless.naturalOrNull.plain o.line ho
    simp [Obligation.fields, hline]
  · have hline := Lossless.naturalOrNull.decodes o.line ho d d.zero_le
    simp [Obligation.fields, hline]
  · simp only [Option.bind_eq_bind, Option.bind_eq_some_iff] at h
    obtain ⟨_, _, _, _, _, _, _, _, _, _, line, hline, ho⟩ := h
    rw [← Option.some.inj ho]
    exact lineFits_of_optional hline

theorem Right.lossless : Lossless Right.toJson Right.decoder 1 fun r => LineFits r.line := by
  refine .record (by decide) (fun r => .refl _) (fun r hr => ?_) (fun r hr d _ => ?_)
    (fun fields r h => ?_)
  · have hline := Lossless.naturalOrNull.plain r.line hr
    simp [Right.fields, hline]
  · have hline := Lossless.naturalOrNull.decodes r.line hr d d.zero_le
    simp [Right.fields, hline]
  · simp only [Option.bind_eq_bind, Option.bind_eq_some_iff] at h
    obtain ⟨_, _, _, _, _, _, _, _, line, hline, hr⟩ := h
    rw [← Option.some.inj hr]
    exact lineFits_of_optional hline

theorem Condition.lossless :
    Lossless Condition.toJson Condition.decoder 2 fun c => LineFits c.line := by
  refine .record (by decide) (fun c => .refl _) (fun c hc => ?_) (fun c hc d hd => ?_)
    (fun fields c h => ?_)
  · have hline := Lossless.naturalOrNull.plain c.line hc
    simp [Condition.fields, hline]
  · obtain ⟨d, rfl⟩ : ∃ k, d = k + 1 := ⟨d - 1, by omega⟩
    have hline := Lossless.naturalOrNull.decodes c.line hc (d + 1) (Nat.zero_le _)
    simp [Condition.fields, hline]
  · simp only [Option.bind_eq_bind, Option.bind_eq_some_iff] at h
    obtain ⟨_, _, _, _, _, _, _, _, line, hline, hc⟩ := h
    rw [← Option.some.inj hc]
    exact lineFits_of_optional hline

/-! ## Nodes -/

theorem NodeKind.ofLabel?_label (kind : NodeKind) :
    NodeKind.ofLabel? kind.label = some kind := by
  cases kind <;> rfl

/-- The level of a clause and the line of any node have 32 bits. -/
def Node.Portable : Node → Prop
  | .clause c => c.Portable
  | n => LineFits n.line

theorem Node.decoderOf_fields {n : Node} (hn : n.Portable) {d : Nat} (hd : 2 ≤ d) :
    Node.decoderOf n.kind d (Value.object n.fields).toSource = some n := by
  cases n with
  | clause c =>
    have hread := Clause.lossless.decodes c hn d (by omega)
    exact congrArg (Option.map Node.clause) hread
  | obligation o =>
    have hread := Obligation.lossless.decodes o hn d (by omega)
    exact congrArg (Option.map Node.obligation) hread
  | right r =>
    have hread := Right.lossless.decodes r hn d (by omega)
    exact congrArg (Option.map Node.right) hread
  | condition c =>
    have hread := Condition.lossless.decodes c hn d hd
    exact congrArg (Option.map Node.condition) hread

theorem Node.plain_fields {n : Node} (hn : n.Portable) : (Value.object n.fields).Plain := by
  cases n with
  | clause c => exact Clause.lossless.plain c hn
  | obligation o => exact Obligation.lossless.plain o hn
  | right r => exact Right.lossless.plain r hn
  | condition c => exact Condition.lossless.plain c hn

theorem Node.ensures_decoderOf (kind : NodeKind) : (Node.decoderOf kind).Ensures Node.Portable := by
  intro depth source n h
  cases kind with
  | clause =>
    obtain ⟨c, hc, rfl⟩ := Option.map_eq_some_iff.mp h
    exact Clause.lossless.portable depth source c hc
  | obligation =>
    obtain ⟨o, ho, rfl⟩ := Option.map_eq_some_iff.mp h
    exact Obligation.lossless.portable depth source o ho
  | right =>
    obtain ⟨r, hr, rfl⟩ := Option.map_eq_some_iff.mp h
    exact Right.lossless.portable depth source r hr
  | condition =>
    obtain ⟨c, hc, rfl⟩ := Option.map_eq_some_iff.mp h
    exact Condition.lossless.portable depth source c hc

/-! The decoder of nodes goes through all of a node before it looks at its kind. In what is written
for a node it meets nothing but texts, numbers, null and one list. -/

/-- The tree of a value has no fault and does not nest too deep. -/
def SoundAt (depth : Nat) (v : Value) : Prop := (Decoder.value depth v.toSource).isSome

@[simp] theorem soundAt_string (d : Nat) (s : String) : SoundAt d (.string s) := by
  simp [SoundAt, Value.toSource, Decoder.value]

@[simp] theorem soundAt_natural (d n : Nat) : SoundAt d (.natural n) := by
  simp [SoundAt, Value.natural, Value.toSource, Decoder.value]

theorem soundAt_null (d : Nat) : SoundAt d .null := by
  simp [SoundAt, Value.toSource, Decoder.value]

@[simp] theorem soundAt_stringOrNull (d : Nat) (s : Option String) :
    SoundAt d (.stringOrNull s) := by
  cases s with
  | none => exact soundAt_null d
  | some s => exact soundAt_string d s

@[simp] theorem soundAt_naturalOrNull (d : Nat) (n : Option Nat) :
    SoundAt d (.naturalOrNull n) := by
  cases n with
  | none => exact soundAt_null d
  | some n => exact soundAt_natural d n

@[simp] theorem soundAt_strings (d : Nat) (ss : List String) : SoundAt (d + 1) (.strings ss) := by
  rw [SoundAt, Value.strings, Value.toSource, Value.itemsToSource_eq, Decoder.value,
    Option.isSome_map]
  refine isSome_mapM fun source hsource => ?_
  obtain ⟨item, hitem, rfl⟩ := List.mem_map.mp hsource
  obtain ⟨s, -, rfl⟩ := List.mem_map.mp hitem
  exact soundAt_string d s

theorem soundAt_object {fields : List (String × Value)} {d : Nat}
    (h : ∀ field ∈ fields, SoundAt d field.2) : SoundAt (d + 1) (.object fields) := by
  rw [SoundAt, Value.toSource, Value.fieldsToSource_eq, Decoder.value, Option.isSome_map]
  refine isSome_mapM fun source hsource => ?_
  obtain ⟨field, hfield, rfl⟩ := List.mem_map.mp hsource
  obtain ⟨v, hv⟩ := Option.isSome_iff_exists.mp (h field hfield)
  simp [hv]

theorem Node.soundAt (n : Node) (d : Nat) : SoundAt (d + 2) n.toJson := by
  refine soundAt_object (List.forall_mem_cons.mpr ⟨soundAt_string _ _, ?_⟩)
  cases n with
  | clause c => simp [Node.fields, Clause.fields]
  | obligation o => simp [Node.fields, Obligation.fields]
  | right r => simp [Node.fields, Right.fields]
  | condition c => simp [Node.fields, Condition.fields]

theorem Node.decoder_tagged {depth : Nat} {label : String} {rest : List (Option String × Source)}
    (hsound : (Decoder.value (depth + 1)
      (.object ((some "type", .string (some label)) :: rest) true)).isSome)
    (hrest : ∀ field ∈ rest, field.1 ≠ some "type") :
    Node.decoder (depth + 1) (.object ((some "type", .string (some label)) :: rest) true) =
      (NodeKind.ofLabel? label).bind fun kind =>
        Node.decoderOf kind (depth + 1) (.object rest true) := by
  obtain ⟨v, hv⟩ := Option.isSome_iff_exists.mp hsound
  have hnone : rest.filter (fun field => field.1 == some "type") = [] := by
    refine List.filter_eq_nil_iff.mpr fun field hfield => ?_
    simpa using hrest field hfield
  have hall : rest.filter (fun field => !(field.1 == some "type")) = rest := by
    refine List.filter_eq_self.mpr fun field hfield => ?_
    simpa using hrest field hfield
  simp [Node.decoder, hv, List.partition_eq_filter_filter, Function.comp_def, hnone, hall]

theorem Node.untagged (n : Node) :
    ∀ field ∈ Value.fieldsToSource n.fields, field.1 ≠ some "type" := by
  cases n with
  | clause c => simp [Node.fields, Clause.fields, Value.fieldsToSource]
  | obligation o => simp [Node.fields, Obligation.fields, Value.fieldsToSource]
  | right r => simp [Node.fields, Right.fields, Value.fieldsToSource]
  | condition c => simp [Node.fields, Condition.fields, Value.fieldsToSource]

theorem Node.lossless : Lossless Node.toJson Node.decoder 2 Node.Portable where
  plain n hn := by
    cases Node.plain_fields hn with
    | object hfields =>
      exact .object (List.forall_mem_cons.mpr ⟨.string _, hfields⟩)
  decodes n hn d hd := by
    obtain ⟨d, rfl⟩ : ∃ k, d = k + 2 := ⟨d - 2, by omega⟩
    have hread := Node.decoder_tagged (Node.soundAt n d) n.untagged
    rw [NodeKind.ofLabel?_label, Option.bind_some] at hread
    exact hread.trans (Node.decoderOf_fields hn (by omega))
  portable depth source n h := by
    unfold Node.decoder at h
    split at h
    · simp only [Option.bind_eq_bind, Option.bind_eq_some_iff] at h
      obtain ⟨_, _, h⟩ := h
      split at h
      · obtain ⟨kind, _, hread⟩ := Option.bind_eq_some_iff.mp h
        exact Node.ensures_decoderOf kind _ _ n hread
      · contradiction
    · simp only [Option.bind_eq_bind, Option.bind_eq_some_iff] at h
      obtain ⟨_, _, kind, _, hread⟩ := h
      exact Node.ensures_decoderOf kind _ _ n hread
    · contradiction

/-! ## Edges and graphs -/

theorem EdgeKind.ofLabel?_label (kind : EdgeKind) :
    EdgeKind.ofLabel? kind.label = some kind := by
  cases kind <;> rfl

theorem EdgeKind.lossless :
    Lossless (fun kind => .string kind.label) EdgeKind.decoder 0 fun _ => True :=
  .named EdgeKind.ofLabel?_label

theorem Edge.lossless : Lossless Edge.toJson Edge.decoder 1 fun _ => True := by
  refine .record (by decide) (fun e : Edge => .refl _) (fun e _ => ?_) (fun e _ d _ => ?_)
    (fun _ _ _ => trivial)
  · simp
  · have hkind := EdgeKind.lossless.decodes e.kind trivial d d.zero_le
    simp [hkind]

def Projection.Portable (p : Projection) : Prop := ∀ n ∈ p.nodes, n.Portable

theorem Projection.lossless :
    Lossless Projection.toJson Projection.decoder 4 Projection.Portable := by
  refine .record (by decide) (fun p : Projection => .refl _) (fun p hp => ?_)
    (fun p hp d hd => ?_) (fun fields p h => ?_)
  · have hnodes := Node.lossless.list.plain p.nodes hp
    have hedges := Edge.lossless.list.plain p.edges fun _ _ => trivial
    simp [hnodes, hedges]
  · have hnodes := Node.lossless.list.decodes p.nodes hp d hd
    have hedges := Edge.lossless.list.decodes p.edges (fun _ _ => trivial) d (by omega)
    simp [hnodes, hedges]
  · simp only [Option.bind_eq_bind, Option.bind_eq_some_iff] at h
    obtain ⟨nodes, hnodes, edges, _, hp⟩ := h
    rw [← Option.some.inj hp]
    exact Node.lossless.list.portable.required hnodes

end ContractAnalysis
