import ContractAnalysis.Proofs.Codec.Basic
import ContractAnalysis.Review

/-!
# What a message carries

A message is read off every JSON text that spells an object with an array of blocks as its content,
in whatever order the fields stand, in whatever layout, and whatever other fields there are
(`messageDecoder_of_carries`). Its reply is then put together from the pieces in the text blocks
(`replyText_map_block`).

* `Source.Spells`: the fields of an object, of which a record takes some
* `MessagePart`, `MessagePart.IsShownBy`: a block of a message, and the objects that stand for it
* `Carries`: the texts that stand for a message with some blocks
-/

namespace ContractAnalysis

namespace Json

/-- An object with these fields, none of them with one of the names given twice. -/
structure Source.Spells (source : Source) (names : List String)
    (fields : List (String × Source)) : Prop where
  eq : source = .object (fields.map fun field => (some field.1, field.2)) true
  once : ((fields.map Prod.fst).filter fun name => names.contains name).Nodup

theorem Value.spells {names : List String} (fields : List (String × Value))
    (honce : ((fields.map Prod.fst).filter fun name => names.contains name).Nodup) :
    (Value.object fields).toSource.Spells names
      (fields.map fun field => (field.1, field.2.toSource)) where
  eq := by
    rw [Value.toSource, Value.fieldsToSource_eq, List.map_map]
    rfl
  once := by
    rw [List.map_map]
    exact honce

namespace Decoder

variable {α : Type} {names : List String} {fields : List (String × Source)}

/-- The fields of an object that a record with these names takes. -/
def taken (names : List String) (fields : List (String × Source)) : List (String × Source) :=
  fields.filter fun field => names.contains field.1

theorem mapM_legible (fields : List (String × Source)) :
    (fields.map fun field => (some field.1, field.2)).mapM
      (fun (field : Option String × Source) => field.1.map fun name => (name, field.2)) =
      some fields := by
  induction fields with
  | nil => rfl
  | cons field fields ih =>
    rw [List.map_cons, List.mapM_cons, ih]
    rfl

theorem record_of_spells {source : Source} (h : source.Spells names fields) (needed : Nat)
    (read : Fields → Option α) (depth : Nat) :
    record names needed read (depth + 1) source = read ⟨depth, taken names fields⟩ := by
  have honce : ((taken names fields).map Prod.fst).Nodup := by
    rw [taken, ← Function.comp_def, ← List.filter_map]
    exact h.once
  simp only [taken] at honce ⊢
  rw [h.eq]
  simp only [record, Decoder.fields, mapM_legible, Option.bind_eq_bind, Option.bind_some, honce,
    if_true]

theorem lookup_taken {name : String} (hname : name ∈ names) :
    (taken names fields).lookup name = fields.lookup name := by
  induction fields with
  | nil => rfl
  | cons field fields ih =>
    obtain ⟨other, source⟩ := field
    rw [taken] at ih ⊢
    rw [Fields.lookup_cons_eq_ite]
    split_ifs with heq
    · rw [List.filter_cons, if_pos (List.contains_iff_mem.mpr (heq ▸ hname)),
        Fields.lookup_cons_eq_ite, if_pos heq]
    · rw [List.filter_cons, ← ih]
      split_ifs
      · rw [Fields.lookup_cons_eq_ite, if_neg heq]
      · rfl

namespace Fields

variable (decoder : Decoder α) (depth : Nat) {name : String} {source : Source}

theorem required_taken (hname : name ∈ names) (h : fields.lookup name = some source) :
    (⟨depth, taken names fields⟩ : Fields).required name decoder = decoder depth source := by
  rw [required, lookup_taken hname, h]
  rfl

theorem withDefault_taken (hname : name ∈ names) (h : fields.lookup name = some source)
    (default : α) :
    (⟨depth, taken names fields⟩ : Fields).withDefault name decoder default =
      decoder depth source := by
  rw [withDefault, lookup_taken hname, h]

theorem withDefault_taken_of_none (hname : name ∈ names) (h : fields.lookup name = none)
    (default : α) :
    (⟨depth, taken names fields⟩ : Fields).withDefault name decoder default = some default := by
  rw [withDefault, lookup_taken hname, h]

end Fields

end Decoder

end Json

open Json

/-- A block of a message: a piece of the reply, or a block of another type without a text. -/
inductive MessagePart where
  | text (piece : String)
  | other (type : String)

namespace MessagePart

/-- What a block adds to the reply. -/
def piece : MessagePart → String
  | .text piece => piece
  | .other _ => ""

def block : MessagePart → ContentBlock
  | .text piece => ⟨"text", piece⟩
  | .other type => ⟨type, ""⟩

/-- The objects that stand for a block; they may have other fields. -/
inductive IsShownBy : MessagePart → Source → Prop where
  | text {source : Source} {fields : List (String × Source)} {piece : String}
      (spelled : source.Spells ["type", "text"] fields)
      (type : fields.lookup "type" = some (.string (some "text")))
      (text : fields.lookup "text" = some (.string (some piece))) : IsShownBy (.text piece) source
  | other {source : Source} {fields : List (String × Source)} {label : String}
      (spelled : source.Spells ["type", "text"] fields)
      (type : fields.lookup "type" = some (.string (some label))) (different : label ≠ "text")
      (text : fields.lookup "text" = none) : IsShownBy (.other label) source

end MessagePart

/-- A JSON text that stands for a message with some blocks: an object with the array of the blocks
as its content, perhaps a reason to stop, and perhaps other fields. -/
def Carries (body : String) (parts : List MessagePart) : Prop :=
  ∃ source fields items, read body = (source, true) ∧
    source.Spells ["content", "stop_reason"] fields ∧
    fields.lookup "content" = some (.array items true) ∧
    (∀ reason, fields.lookup "stop_reason" = some reason →
      reason = .null ∨ ∃ s, reason = .string (some s)) ∧
    List.Forall₂ MessagePart.IsShownBy parts items

theorem MessagePart.IsShownBy.decoder_eq {part : MessagePart} {source : Source}
    (h : part.IsShownBy source) (depth : Nat) :
    ContentBlock.decoder (depth + 1) source = some part.block := by
  cases h with
  | text spelled type text =>
    rw [ContentBlock.decoder, Decoder.record_of_spells spelled,
      Decoder.Fields.required_taken _ _ (by decide) type,
      Decoder.Fields.withDefault_taken _ _ (by decide) text]
    rfl
  | other spelled type different text =>
    rw [ContentBlock.decoder, Decoder.record_of_spells spelled,
      Decoder.Fields.required_taken _ _ (by decide) type,
      Decoder.Fields.withDefault_taken_of_none _ _ (by decide) text]
    rfl

theorem mapM_block {parts : List MessagePart} {items : List Source}
    (h : List.Forall₂ MessagePart.IsShownBy parts items) (depth : Nat) :
    items.mapM (ContentBlock.decoder (depth + 1)) = some (parts.map MessagePart.block) := by
  induction h with
  | nil => rfl
  | cons hshown _ ih =>
    rw [List.mapM_cons, hshown.decoder_eq, ih]
    rfl

/-- A text that stands for a message is read as its blocks. -/
theorem messageDecoder_of_carries {body : String} {parts : List MessagePart}
    (h : Carries body parts) :
    messageDecoder.decodeText body = some (parts.map MessagePart.block) := by
  obtain ⟨source, fields, items, hread, hspells, hcontent, hreason, hitems⟩ := h
  have hblocks : Decoder.list ContentBlock.decoder 126 (.array items true) =
      some (parts.map MessagePart.block) := mapM_block hitems 124
  let given : Decoder.Fields := ⟨126, Decoder.taken ["content", "stop_reason"] fields⟩
  have hstop : ∃ reason, given.optional "stop_reason" .string = some reason := by
    rw [Decoder.Fields.optional_eq]
    cases hgiven : fields.lookup "stop_reason" with
    | none => exact ⟨_, Decoder.Fields.withDefault_taken_of_none _ _ (by decide) hgiven _⟩
    | some reason =>
      rw [Decoder.Fields.withDefault_taken _ _ (by decide) hgiven]
      rcases hreason reason hgiven with rfl | ⟨s, rfl⟩
      · exact ⟨none, rfl⟩
      · exact ⟨some s, rfl⟩
  obtain ⟨reason, hstop⟩ := hstop
  rw [Decoder.decodeText, hread]
  simp only [if_true]
  rw [messageDecoder, Decoder.maxDepth, Decoder.record_of_spells hspells,
    Decoder.Fields.required_taken _ _ (by decide) hcontent, hblocks, hstop]
  rfl

theorem replyText_map_block (parts : List MessagePart) :
    replyText (parts.map MessagePart.block) = String.join (parts.map MessagePart.piece) := by
  induction parts with
  | nil => rfl
  | cons part parts ih =>
    rw [replyText] at ih
    rw [replyText, List.map_cons, List.map_cons, List.filter_cons, String.join_cons, ← ih]
    cases part with
    | text piece => rw [if_pos (by rfl), List.map_cons, String.join_cons]; rfl
    | other label =>
      -- Whatever its type, the block has no text to add.
      split_ifs
      · rw [List.map_cons, String.join_cons]
        rfl
      · rw [MessagePart.piece, String.empty_append]

end ContractAnalysis
