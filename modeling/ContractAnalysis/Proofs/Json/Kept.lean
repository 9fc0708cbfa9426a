import ContractAnalysis.Proofs.Codec.Message
import ContractAnalysis.Proofs.Json.Reading

/-!
# What is kept of a value

Any value can be read off a text as it is, without a type in mind, as long as it is not nested too
deep (`Decoder.value_toSource`). What is kept of it then has each field once: of a field given twice
the last one counts (`lookup_foldl_putLast`).

* `Value.Nests`: values in which so many arrays and objects are nested at most
* `Value.kept`: a value without the fields that are given again
* `Decoder.Recognizes`: a decoder reads a value of its type off what is kept of exactly the values
  that are written for it
-/

namespace ContractAnalysis.Json

namespace Value

/-- At most so many arrays and objects are nested in each other. -/
inductive Nests : Nat → Value → Prop
  | null {depth : Nat} : Nests depth .null
  | bool {depth : Nat} (b : Bool) : Nests depth (.bool b)
  | number {depth : Nat} (n : Number) : Nests depth (.number n)
  | string {depth : Nat} (s : String) : Nests depth (.string s)
  | array {depth : Nat} {items : List Value} (h : ∀ item ∈ items, Nests depth item) :
    Nests (depth + 1) (.array items)
  | object {depth : Nat} {fields : List (String × Value)}
    (h : ∀ field ∈ fields, Nests depth field.2) : Nests (depth + 1) (.object fields)

mutual

/-- A value in which of a field given twice only the last one is left. -/
def kept : Value → Value
  | .null => .null
  | .bool b => .bool b
  | .number n => .number n
  | .string s => .string s
  | .array items => .array (keptItems items)
  | .object fields => .object ((keptFields fields).foldl Decoder.putLast [])

def keptItems : List Value → List Value
  | [] => []
  | item :: rest => kept item :: keptItems rest

def keptFields : List (String × Value) → List (String × Value)
  | [] => []
  | (name, value) :: rest => (name, kept value) :: keptFields rest

end

theorem keptItems_eq (items : List Value) : keptItems items = items.map kept := by
  induction items with
  | nil => rfl
  | cons item items ih => rw [keptItems, ih, List.map_cons]

theorem keptFields_eq (fields : List (String × Value)) :
    keptFields fields = fields.map fun field => (field.1, field.2.kept) := by
  induction fields with
  | nil => rfl
  | cons field fields ih => rw [keptFields, ih, List.map_cons]

end Value

/-! ## Fields given twice -/

theorem lookup_map {α β : Type} (f : α → β) (fields : List (String × α)) (name : String) :
    (fields.map fun field => (field.1, f field.2)).lookup name = (fields.lookup name).map f := by
  induction fields with
  | nil => rfl
  | cons field fields ih =>
    rw [List.map_cons, Decoder.Fields.lookup_cons_eq_ite, ih, Decoder.Fields.lookup_cons_eq_ite]
    split_ifs <;> rfl

theorem nodup_foldl_putLast (fields : List (String × Value)) :
    ((fields.foldl Decoder.putLast []).map Prod.fst).Nodup := by
  induction fields using List.reverseRecOn with
  | nil => exact .nil
  | append_singleton fields field ih =>
    rw [List.foldl_concat, Decoder.putLast, List.map_append, List.nodup_append]
    refine ⟨ih.sublist (List.filter_sublist.map Prod.fst), by simp, ?_⟩
    rintro name hname _ hother rfl
    obtain ⟨other, hmem, rfl⟩ := List.mem_map.mp hname
    have hdifferent := (List.mem_filter.mp hmem).2
    simp only [List.map_singleton, List.mem_singleton] at hother
    simp [hother] at hdifferent

theorem lookup_filter_ne (fields : List (String × Value)) (name other : String) :
    (fields.filter fun field => field.1 != other).lookup name =
      if name = other then none else fields.lookup name := by
  induction fields with
  | nil => simp
  | cons field fields ih =>
    obtain ⟨first, value⟩ := field
    by_cases hfirst : first = other
    · rw [List.filter_cons_of_neg (by simpa using hfirst), ih, Decoder.Fields.lookup_cons_eq_ite,
        hfirst]
      split_ifs <;> rfl
    · rw [List.filter_cons_of_pos (by simpa using hfirst), Decoder.Fields.lookup_cons_eq_ite, ih,
        Decoder.Fields.lookup_cons_eq_ite]
      split_ifs with hname hother
      · exact absurd (hname.symm.trans hother) hfirst
      all_goals rfl

theorem lookup_foldl_putLast (fields : List (String × Value)) (name : String) :
    (fields.foldl Decoder.putLast []).lookup name = fields.reverse.lookup name := by
  induction fields using List.reverseRecOn with
  | nil => rfl
  | append_singleton fields field ih =>
    obtain ⟨last, value⟩ := field
    rw [List.foldl_concat, Decoder.putLast, List.lookup_append, lookup_filter_ne, ih,
      List.reverse_concat, Decoder.Fields.lookup_cons_eq_ite, Decoder.Fields.lookup_cons_eq_ite]
    split_ifs
    · rfl
    · rw [List.lookup_nil, Option.or_none]

/-! ## Reading any value -/

theorem Decoder.value_toSource {depth : Nat} {v : Value} (h : v.Nests depth) :
    Decoder.value depth v.toSource = some v.kept := by
  induction h with
  | null => simp [Value.toSource, Decoder.value, Value.kept]
  | bool b => simp [Value.toSource, Decoder.value, Value.kept]
  | number n => simp [Value.toSource, Decoder.value, Value.kept]
  | string s => simp [Value.toSource, Decoder.value, Value.kept]
  | @array depth items _ ih =>
    have hitems : (items.map Value.toSource).mapM (Decoder.value depth) =
        some (items.map Value.kept) := by
      rw [List.mapM_map]
      exact mapM_eq_some_map ih
    rw [Value.toSource, Decoder.value, Value.itemsToSource_eq, hitems, Value.kept,
      Value.keptItems_eq]
    rfl
  | @object depth fields _ ih =>
    have hfields : (Value.fieldsToSource fields).mapM
        (fun field : Option String × Source => do
          let name ← field.1
          let value ← Decoder.value depth field.2
          some (name, value)) = some (Value.keptFields fields) := by
      rw [Value.fieldsToSource_eq, List.mapM_map, Value.keptFields_eq]
      refine mapM_eq_some_map fun field hfield => ?_
      simp [ih field hfield]
    rw [Value.toSource, Decoder.value, hfields, Value.kept]
    rfl

/-! ## Reading a value of some type -/

variable {α : Type}

/-- A decoder reads a value of its type off what is kept of exactly the values that are written for
it. -/
def Decoder.Recognizes (decoder : Decoder α) (depth : Nat) (encode : α → Value)
    (Portable : α → Prop) : Prop :=
  ∀ d, depth ≤ d → ∀ v a, decoder d v.kept.toSource = some a ↔ v = encode a ∧ Portable a

namespace Decoder.Recognizes

theorem string : Recognizes .string 0 .string fun _ => True := by
  intro d _ v s
  cases v <;> simp [Value.kept, Value.toSource, Decoder.string]

theorem natural (bound : Nat) : Recognizes (.natural bound) 0 .natural (· < bound) := by
  intro d _ v n
  cases v with
  | number m =>
    cases m with
    | natural m =>
      simp only [Value.kept, Value.toSource, Decoder.natural, Option.ite_none_right_eq_some,
        Option.some.injEq, Value.natural, Value.number.injEq, Number.natural.injEq]
      constructor
      · rintro ⟨hbound, rfl⟩
        exact ⟨rfl, hbound⟩
      · rintro ⟨rfl, hbound⟩
        exact ⟨hbound, rfl⟩
    | other literal => simp [Value.kept, Value.toSource, Decoder.natural, Value.natural]
  | _ => simp [Value.kept, Value.toSource, Decoder.natural, Value.natural]

theorem list {decoder : Decoder α} {depth : Nat} {encode : α → Value} {Portable : α → Prop}
    (h : decoder.Recognizes depth encode Portable) :
    Recognizes (.list decoder) (depth + 1) (fun as => .array (as.map encode))
      fun as => ∀ a ∈ as, Portable a := by
  intro d hd v as
  obtain ⟨d, rfl⟩ : ∃ k, d = k + 1 := ⟨d - 1, by omega⟩
  cases v with
  | array items =>
    have hitems : ∀ item a, decoder d item.kept.toSource = some a ↔ item = encode a ∧ Portable a :=
      h d (by omega)
    simp only [Value.kept, Value.toSource, Decoder.list, Value.keptItems_eq, List.mapM_map,
      Value.itemsToSource_eq, Value.array.injEq, mapM_eq_some_iff, Function.comp_apply, hitems]
    constructor
    · intro hread
      induction hread with
      | nil => simp
      | cons hitem _ ih =>
        rw [List.forall_mem_cons, hitem.1, ih.1]
        exact ⟨rfl, hitem.2, ih.2⟩
    · rintro ⟨rfl, has⟩
      rw [List.forall₂_map_left_iff]
      exact List.forall₂_same.mpr fun a ha => ⟨rfl, has a ha⟩
  | _ => simp [Value.kept, Value.toSource, Decoder.list]

theorem stringOrNull : Recognizes (.nullable .string) 0 .stringOrNull fun _ => True := by
  intro d _ v s
  cases v <;> cases s <;>
    simp [Value.kept, Value.toSource, Decoder.nullable, Decoder.string, Value.stringOrNull]

end Decoder.Recognizes

end ContractAnalysis.Json
