import ContractAnalysis.Json.Decoder
import ContractAnalysis.Proofs.Json.Reading
import Mathlib.Data.List.Forall2

/-!
# Decoding what was encoded

A value of some type goes through a text and back in two steps: the reader gets the encoded value
from the text, and the decoder gets the value of the type from that. The first step is
`Value.read_compact` and `Value.read_pretty`. The second is `Lossless`, which is proved of a type
from the types of its parts: a list from its items, a record from its fields.

* `RoundTrips`: what is said of a type that is exchanged as JSON text
* `Lossless`, `Lossless.roundTrips`: what an encoder and a decoder have to keep to for that
* `Decoder.Ensures`: what is known of everything that a decoder reads
* `Decoder.record_object`: an object that was written for a record is read field by field
-/

namespace ContractAnalysis.Json

variable {α β : Type}

/-- Values are exchanged as JSON text without loss, as long as they are portable. -/
structure RoundTrips (encode : α → Value) (decode : String → Option α) (Portable : α → Prop) :
    Prop where
  compact : ∀ a, Portable a → decode (encode a).compact = some a
  pretty : ∀ a, Portable a → decode (encode a).pretty = some a
  /-- What was decoded once is decoded again, from the text that is then written for it. -/
  settles : ∀ text a, decode text = some a →
    decode (encode a).compact = some a ∧ decode (encode a).pretty = some a

theorem RoundTrips.pretty_inj {encode : α → Value} {decode : String → Option α}
    {Portable : α → Prop} (h : RoundTrips encode decode Portable) {a b : α} (ha : Portable a)
    (hb : Portable b) (heq : (encode a).pretty = (encode b).pretty) : a = b :=
  Option.some.inj ((h.pretty a ha).symm.trans ((congrArg decode heq).trans (h.pretty b hb)))

/-- A decoder that may go so deep or deeper reads a value of its type off a JSON value. -/
def Decodes (decoder : Decoder α) (depth : Nat) (v : Value) (a : α) : Prop :=
  ∀ d, depth ≤ d → decoder d v.toSource = some a

/-- Everything that a decoder reads has a property. -/
def Decoder.Ensures (decoder : Decoder α) (P : α → Prop) : Prop :=
  ∀ depth source a, decoder depth source = some a → P a

/-- Portable values are written with plain numbers only and read off what is written for them, and
no others are read. -/
structure Lossless (encode : α → Value) (decoder : Decoder α) (depth : Nat)
    (Portable : α → Prop) : Prop where
  plain : ∀ a, Portable a → (encode a).Plain
  decodes : ∀ a, Portable a → Decodes decoder depth (encode a) a
  portable : decoder.Ensures Portable

theorem mapM_eq_some_iff {f : α → Option β} {as : List α} {bs : List β} :
    as.mapM f = some bs ↔ List.Forall₂ (fun a b => f a = some b) as bs := by
  induction as generalizing bs with
  | nil => simp [eq_comm]
  | cons a as ih =>
    simp only [List.mapM_cons, Option.bind_eq_bind, Option.bind_eq_some_iff, Option.pure_def,
      Option.some.injEq, List.forall₂_cons_left_iff, ih]
    grind

theorem mapM_eq_some_map {f : α → Option β} {g : α → β} {as : List α}
    (h : ∀ a ∈ as, f a = some (g a)) : as.mapM f = some (as.map g) :=
  mapM_eq_some_iff.mpr (List.forall₂_map_right_iff.mpr (List.forall₂_same.mpr h))

theorem exists_of_mapM {f : α → Option β} {as : List α} {bs : List β} (h : as.mapM f = some bs)
    {b : β} (hb : b ∈ bs) : ∃ a ∈ as, f a = some b := by
  have hread := mapM_eq_some_iff.mp h
  clear h
  induction hread with
  | nil => exact absurd hb List.not_mem_nil
  | @cons first _ as _ hfirst _ ih =>
    rcases List.mem_cons.mp hb with rfl | htail
    · exact ⟨first, List.mem_cons_self, hfirst⟩
    · obtain ⟨source, hmem, hsource⟩ := ih htail
      exact ⟨source, List.mem_cons_of_mem first hmem, hsource⟩

theorem isSome_mapM {f : α → Option β} {as : List α} (h : ∀ a ∈ as, (f a).isSome) :
    (as.mapM f).isSome := by
  induction as with
  | nil => rfl
  | cons a as ih =>
    obtain ⟨ha, has⟩ := List.forall_mem_cons.mp h
    obtain ⟨b, hb⟩ := Option.isSome_iff_exists.mp ha
    obtain ⟨bs, hbs⟩ := Option.isSome_iff_exists.mp (ih has)
    rw [List.mapM_cons, hb, hbs]
    rfl

namespace Lossless

variable {encode : α → Value} {decoder : Decoder α} {depth : Nat} {Portable : α → Prop}

theorem roundTrips (h : Lossless encode decoder depth Portable)
    (hdepth : depth ≤ Decoder.maxDepth) : RoundTrips encode decoder.decodeText Portable := by
  have hcompact : ∀ a, Portable a → decoder.decodeText (encode a).compact = some a := by
    intro a ha
    rw [Decoder.decodeText, Value.read_compact (h.plain a ha)]
    exact h.decodes a ha _ hdepth
  have hpretty : ∀ a, Portable a → decoder.decodeText (encode a).pretty = some a := by
    intro a ha
    rw [Decoder.decodeText, Value.read_pretty (h.plain a ha)]
    exact h.decodes a ha _ hdepth
  refine ⟨hcompact, hpretty, fun text a hread => ?_⟩
  have ha : Portable a := by
    have hsource := (Option.ite_none_right_eq_some.mp hread).2
    exact h.portable _ _ a hsource
  exact ⟨hcompact a ha, hpretty a ha⟩

theorem decodeText_line (h : Lossless encode decoder depth Portable)
    (hdepth : depth ≤ Decoder.maxDepth) {a : α} (ha : Portable a) :
    decoder.decodeText ((encode a).pretty ++ "\n") = some a := by
  rw [Decoder.decodeText, Value.read_pretty_line (h.plain a ha)]
  exact h.decodes a ha _ hdepth

theorem string : Lossless .string .string 0 fun _ => True :=
  ⟨fun s _ => .string s, fun _ _ _ _ => rfl, fun _ _ _ _ => trivial⟩

theorem natural {bound : Nat} (hbound : bound ≤ Nat.pow 2 64) :
    Lossless .natural (.natural bound) 0 (· < bound) where
  plain n hn := .natural (by omega)
  decodes n hn d _ := if_pos hn
  portable depth source n h := by
    unfold Decoder.natural at h
    split at h
    · obtain ⟨hlt, heq⟩ := Option.ite_none_right_eq_some.mp h
      exact Option.some.inj heq ▸ hlt
    · contradiction

theorem natural32 : Lossless .natural .natural32 0 (· < Nat.pow 2 32) := natural (by decide)

theorem natural64 : Lossless .natural .natural64 0 (· < Nat.pow 2 64) := natural le_rfl

theorem stringOrNull : Lossless .stringOrNull (.nullable .string) 0 fun _ => True where
  plain s _ := by
    cases s
    · exact .null
    · exact .string _
  decodes s _ d _ := by cases s <;> rfl
  portable _ _ _ _ := trivial

theorem naturalOrNull :
    Lossless .naturalOrNull (.nullable .natural32) 0 fun n => ∀ m ∈ n, m < Nat.pow 2 32 where
  plain n hn := by
    cases n with
    | none => exact .null
    | some n => exact natural32.plain n (hn n rfl)
  decodes n hn d hd := by
    cases n with
    | none => rfl
    | some n =>
      have hread := natural32.decodes n (hn n rfl) d hd
      change (Decoder.natural32 d (Value.natural n).toSource).map some = _
      rw [hread, Option.map_some]
  portable depth source n h := by
    intro m hm
    unfold Decoder.nullable at h
    split at h
    · rw [← Option.some.inj h] at hm
      contradiction
    · obtain ⟨k, hk, rfl⟩ := Option.map_eq_some_iff.mp h
      exact Option.mem_some_iff.mp hm ▸ natural32.portable _ _ k hk

theorem list (h : Lossless encode decoder depth Portable) :
    Lossless (fun as => .array (as.map encode)) (.list decoder) (depth + 1)
      fun as => ∀ a ∈ as, Portable a where
  plain as has := by
    refine .array fun item hitem => ?_
    obtain ⟨a, ha, rfl⟩ := List.mem_map.mp hitem
    exact h.plain a (has a ha)
  decodes as has d hd := by
    obtain ⟨d, rfl⟩ : ∃ k, d = k + 1 := ⟨d - 1, by omega⟩
    rw [Value.toSource, Decoder.list, Value.itemsToSource_eq, List.mapM_map, List.mapM_map]
    have hread := mapM_eq_some_map fun a ha => h.decodes a (has a ha) d (by omega)
    rwa [List.map_id'] at hread
  portable depth source as hread := by
    unfold Decoder.list at hread
    split at hread
    · intro a ha
      obtain ⟨item, -, hitem⟩ := exists_of_mapM hread ha
      exact h.portable _ item a hitem
    · contradiction

theorem strings : Lossless .strings (.list .string) 1 fun _ => True where
  plain ss _ := string.list.plain ss fun _ _ => trivial
  decodes ss _ := string.list.decodes ss fun _ _ => trivial
  portable _ _ _ _ := trivial

end Lossless

/-! ## Values that are written as text -/

theorem Lossless.text {render : α → String} {parse : String → Option α} {Portable : α → Prop}
    (hparse : ∀ a, Portable a → parse (render a) = some a)
    (hportable : ∀ s a, parse s = some a → Portable a) :
    Lossless (fun a => .string (render a)) (.mapOption .string parse) 0 Portable where
  plain _ _ := .string _
  decodes a ha _ _ := hparse a ha
  portable depth source a h := by
    obtain ⟨s, -, hs⟩ := Option.bind_eq_some_iff.mp h
    exact hportable s a hs

theorem Lossless.named {label : α → String} {ofLabel? : String → Option α}
    (h : ∀ a, ofLabel? (label a) = some a) :
    Lossless (fun a => .string (label a)) (.named ofLabel?) 0 fun _ => True where
  plain _ _ := .string _
  decodes a _ _ _ := h a
  portable _ _ _ _ := trivial

/-! ## Fields without a range

Texts and truth values are portable without exception, so their fields go away in a simplification.
-/

attribute [simp] Value.Plain.string Value.Plain.bool

@[simp] theorem plain_stringOrNull (s : Option String) : (Value.stringOrNull s).Plain :=
  Lossless.stringOrNull.plain s trivial

@[simp] theorem plain_strings (ss : List String) : (Value.strings ss).Plain :=
  Lossless.strings.plain ss trivial

namespace Decoder

@[simp] theorem string_toSource (depth : Nat) (s : String) :
    string depth (Value.string s).toSource = some s := rfl

@[simp] theorem bool_toSource (depth : Nat) (b : Bool) :
    bool depth (Value.bool b).toSource = some b := rfl

@[simp] theorem nullable_string_toSource (depth : Nat) (s : String) :
    nullable string depth (Value.string s).toSource = some (some s) := rfl

@[simp] theorem stringOrNull_toSource (depth : Nat) (s : Option String) :
    nullable string depth (Value.stringOrNull s).toSource = some s :=
  Lossless.stringOrNull.decodes s trivial depth depth.zero_le

@[simp] theorem strings_toSource (depth : Nat) (ss : List String) :
    list string (depth + 1) (Value.strings ss).toSource = some ss :=
  Lossless.strings.decodes ss trivial (depth + 1) (by omega)

end Decoder

/-! ## Records -/

namespace Decoder

theorem fieldsToSource_map (fields : List (String × Value)) :
    (Value.fieldsToSource fields).mapM (fun (field : Option String × Source) =>
        field.1.map fun name => (name, field.2)) =
      some (fields.map fun field => (field.1, field.2.toSource)) := by
  rw [Value.fieldsToSource_eq, List.mapM_map]
  exact mapM_eq_some_map fun _ _ => rfl

/-- An object whose fields are some of those of a record, in their order, is read field by field. -/
theorem record_object {names : List String} {needed : Nat} {read : Fields → Option α}
    {fields : List (String × Value)} (hnames : (fields.map Prod.fst).Sublist names)
    (hnodup : names.Nodup) (depth : Nat) :
    record names needed read (depth + 1) (Value.object fields).toSource =
      read ⟨depth, fields.map fun field => (field.1, field.2.toSource)⟩ := by
  have hgiven : (fields.map fun field => (field.1, field.2.toSource)).filter
        (fun field => names.contains field.1) =
      fields.map fun field => (field.1, field.2.toSource) := by
    refine List.filter_eq_self.mpr fun given hgiven => ?_
    obtain ⟨field, hfield, rfl⟩ := List.mem_map.mp hgiven
    exact List.contains_iff_mem.mpr (hnames.subset (List.mem_map_of_mem hfield))
  have hfst : (fields.map fun field => (field.1, field.2.toSource)).map Prod.fst =
      fields.map Prod.fst := by
    rw [List.map_map]
    rfl
  have hdistinct : (fields.map Prod.fst).Nodup := hnames.nodup hnodup
  simp only [record, Decoder.fields, Value.toSource, fieldsToSource_map, Option.bind_eq_bind,
    Option.bind_some, hgiven, hfst, hdistinct, if_true]

namespace Fields

variable (decoder : Decoder α) (depth : Nat) (name other : String) (source : Source)
  (rest : List (String × Source))

theorem lookup_cons_eq_ite (x : β) (rest : List (String × β)) :
    ((other, x) :: rest).lookup name = if name = other then some x else rest.lookup name := by
  by_cases h : name = other
  · rw [List.lookup_cons, beq_iff_eq.mpr h, if_pos h]
  · rw [List.lookup_cons, beq_eq_false_iff_ne.mpr h, if_neg h]

@[simp] theorem required_cons :
    (⟨depth, (other, source) :: rest⟩ : Fields).required name decoder =
      if name = other then decoder depth source
      else (⟨depth, rest⟩ : Fields).required name decoder := by
  simp only [required, lookup_cons_eq_ite]
  split_ifs <;> rfl

@[simp] theorem withDefault_nil (default : α) :
    (⟨depth, []⟩ : Fields).withDefault name decoder default = some default := rfl

@[simp] theorem withDefault_cons (default : α) :
    (⟨depth, (other, source) :: rest⟩ : Fields).withDefault name decoder default =
      if name = other then decoder depth source
      else (⟨depth, rest⟩ : Fields).withDefault name decoder default := by
  simp only [withDefault, lookup_cons_eq_ite]
  split_ifs <;> rfl

@[simp] theorem optional_eq (fields : Fields) :
    fields.optional name decoder = fields.withDefault name (nullable decoder) none := rfl

end Fields

theorem Ensures.record {names : List String} {needed : Nat} {read : Fields → Option α}
    {P : α → Prop} (h : ∀ fields a, read fields = some a → P a) :
    (record names needed read).Ensures P := by
  intro depth source a hread
  obtain ⟨fields, -, hfields⟩ := Option.bind_eq_some_iff.mp hread
  exact h fields a hfields

theorem Ensures.required {decoder : Decoder α} {P : α → Prop} (h : decoder.Ensures P)
    {fields : Fields} {name : String} {a : α} (hread : fields.required name decoder = some a) :
    P a := by
  obtain ⟨source, -, hsource⟩ := Option.bind_eq_some_iff.mp hread
  exact h _ source a hsource

theorem Ensures.withDefault {decoder : Decoder α} {P : α → Prop} (h : decoder.Ensures P)
    {fields : Fields} {name : String} {a default : α} (hdefault : P default)
    (hread : fields.withDefault name decoder default = some a) : P a := by
  unfold Fields.withDefault at hread
  split at hread
  · exact h _ _ a hread
  · exact Option.some.inj hread ▸ hdefault

end Decoder

theorem Lossless.record {encode : α → List (String × Value)} {names : List String} {needed : Nat}
    {read : Decoder.Fields → Option α} {depth : Nat} {Portable : α → Prop}
    (hnodup : names.Nodup) (hnames : ∀ a, ((encode a).map Prod.fst).Sublist names)
    (hplain : ∀ a, Portable a → ∀ field ∈ encode a, field.2.Plain)
    (hread : ∀ a, Portable a → ∀ d, depth ≤ d →
      read ⟨d, (encode a).map fun field => (field.1, field.2.toSource)⟩ = some a)
    (hportable : ∀ fields a, read fields = some a → Portable a) :
    Lossless (fun a => .object (encode a)) (.record names needed read) (depth + 1) Portable where
  plain a ha := .object (hplain a ha)
  decodes a ha d hd := by
    obtain ⟨d, rfl⟩ : ∃ k, d = k + 1 := ⟨d - 1, by omega⟩
    rw [Decoder.record_object (hnames a) hnodup]
    exact hread a ha d (by omega)
  portable := .record hportable

end ContractAnalysis.Json
