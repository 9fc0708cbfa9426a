import ContractAnalysis.Proofs.Json.Text

/-!
# Layouts

The two ways of writing a value differ only in where white space stands: `compact_eq_write` and
`pretty_eq_write` say that both write the same value in a layout of their own. What is said of
values that are written in any layout holds of both.

* `Layout`, `Value.write`: white space between the parts of a value, and a value written so
* `Value.induction`: what holds of a value if it holds of its items and of its fields
* `Value.Plain`: values all of whose numbers are natural numbers of 64 bits
-/

namespace ContractAnalysis.Json

/-- Where white space stands in a value that is written. -/
structure Layout where
  /-- In front of the items and fields of a level, and of the bracket behind the deeper ones. -/
  gap : Nat → List Char
  afterColon : List Char
  isSpace_gap : ∀ level, ∀ c ∈ gap level, isSpace c = true
  isSpace_afterColon : ∀ c ∈ afterColon, isSpace c = true

namespace Layout

def compact : Layout where
  gap _ := []
  afterColon := []
  isSpace_gap _ _ h := absurd h List.not_mem_nil
  isSpace_afterColon _ h := absurd h List.not_mem_nil

def pretty : Layout where
  gap level := '\n' :: List.replicate (2 * level) ' '
  afterColon := [' ']
  isSpace_gap level c h := by
    rcases List.mem_cons.mp h with rfl | hspace
    · rfl
    · rw [List.eq_of_mem_replicate hspace]
      rfl
  isSpace_afterColon c h := by
    rw [List.mem_singleton.mp h]
    rfl

end Layout

namespace Value

mutual

/-- A value of a level, written in a layout. -/
def write (layout : Layout) : Nat → Value → List Char
  | _, .null => "null".toList
  | _, .bool b => (if b then "true" else "false").toList
  | _, .number n => n.print.toList
  | _, .string s => (quote s).toList
  | level, .array items =>
    if items.isEmpty then ['[', ']']
    else '[' :: (writeItems layout (level + 1) items ++ (layout.gap level ++ [']']))
  | level, .object fields =>
    if fields.isEmpty then ['\x7b', '\x7d']
    else '\x7b' :: (writeFields layout (level + 1) fields ++ (layout.gap level ++ ['\x7d']))

def writeItems (layout : Layout) : Nat → List Value → List Char
  | _, [] => []
  | level, [item] => layout.gap level ++ write layout level item
  | level, item :: rest =>
    layout.gap level ++ (write layout level item ++ (',' :: writeItems layout level rest))

def writeFields (layout : Layout) : Nat → List (String × Value) → List Char
  | _, [] => []
  | level, [(name, value)] =>
    layout.gap level ++ ((quote name).toList ++
      (':' :: (layout.afterColon ++ write layout level value)))
  | level, (name, value) :: rest =>
    layout.gap level ++ ((quote name).toList ++
      (':' :: (layout.afterColon ++ (write layout level value ++
        (',' :: writeFields layout level rest)))))

end

theorem writeItems_cons_cons (layout : Layout) (level : Nat) (item next : Value)
    (rest : List Value) :
    writeItems layout level (item :: next :: rest) =
      layout.gap level ++
        (write layout level item ++ (',' :: writeItems layout level (next :: rest))) := rfl

theorem writeFields_cons_cons (layout : Layout) (level : Nat) (name : String) (value : Value)
    (next : String × Value) (rest : List (String × Value)) :
    writeFields layout level ((name, value) :: next :: rest) =
      layout.gap level ++ ((quote name).toList ++ (':' :: (layout.afterColon ++
        (write layout level value ++ (',' :: writeFields layout level (next :: rest)))))) := rfl

/-- All numbers in a value are natural numbers of 64 bits. -/
inductive Plain : Value → Prop
  | null : Plain .null
  | bool (b : Bool) : Plain (.bool b)
  | natural {n : Nat} (h : n < Nat.pow 2 64) : Plain (.natural n)
  | string (s : String) : Plain (.string s)
  | array {items : List Value} (h : ∀ item ∈ items, Plain item) : Plain (.array items)
  | object {fields : List (String × Value)} (h : ∀ field ∈ fields, Plain field.2) :
    Plain (.object fields)

theorem induction {P : Value → Prop} (null : P .null) (bool : ∀ b, P (.bool b))
    (number : ∀ n, P (.number n)) (string : ∀ s, P (.string s))
    (array : ∀ items, (∀ item ∈ items, P item) → P (.array items))
    (object : ∀ fields, (∀ field ∈ fields, P field.2) → P (.object fields)) (v : Value) : P v :=
  @Value.rec P (fun items => ∀ item ∈ items, P item) (fun fields => ∀ field ∈ fields, P field.2)
    (fun field => P field.2) null bool number string array object
    (fun _ h => absurd h List.not_mem_nil)
    (fun _ _ hitem hrest => List.forall_mem_cons.mpr ⟨hitem, hrest⟩)
    (fun _ h => absurd h List.not_mem_nil)
    (fun _ _ hfield hrest => List.forall_mem_cons.mpr ⟨hfield, hrest⟩) (fun _ _ h => h) v

/-! ## The two printers -/

theorem compactItems_eq_write {items : List Value}
    (h : ∀ item ∈ items, ∀ level, item.compact.toList = write .compact level item) (level : Nat) :
    (compactItems items).toList = writeItems .compact level items := by
  induction items with
  | nil => rfl
  | cons item rest ih =>
    obtain ⟨hitem, hrest⟩ := List.forall_mem_cons.mp h
    cases rest with
    | nil => simp [compactItems, writeItems, hitem level, Layout.compact]
    | cons next rest =>
      simp [compactItems, writeItems, hitem level, ih hrest, Layout.compact]

theorem compactFields_eq_write {fields : List (String × Value)}
    (h : ∀ field ∈ fields, ∀ level, field.2.compact.toList = write .compact level field.2)
    (level : Nat) : (compactFields fields).toList = writeFields .compact level fields := by
  induction fields with
  | nil => rfl
  | cons field rest ih =>
    obtain ⟨hfield, hrest⟩ := List.forall_mem_cons.mp h
    cases rest with
    | nil => simp [compactFields, writeFields, hfield level, Layout.compact]
    | cons next rest =>
      simp [compactFields, writeFields, hfield level, ih hrest, Layout.compact]

theorem compact_eq_write (v : Value) (level : Nat) :
    v.compact.toList = write .compact level v := by
  induction v using induction generalizing level with
  | null => rfl
  | bool b => cases b <;> rfl
  | number => rfl
  | string => rfl
  | array items ih =>
    cases items with
    | nil => rfl
    | cons item rest =>
      simp [compact, write, compactItems_eq_write ih (level + 1), Layout.compact]
  | object fields ih =>
    cases fields with
    | nil => rfl
    | cons field rest =>
      simp [compact, write, compactFields_eq_write ih (level + 1), Layout.compact]

theorem toList_newLine (level : Nat) : (newLine level).toList = Layout.pretty.gap level := by
  simp [newLine, Layout.pretty]

theorem prettyItems_eq_write {items : List Value}
    (h : ∀ item ∈ items, ∀ level, (prettyAt level item).toList = write .pretty level item)
    (level : Nat) : (prettyItems level items).toList = writeItems .pretty level items := by
  induction items with
  | nil => rfl
  | cons item rest ih =>
    obtain ⟨hitem, hrest⟩ := List.forall_mem_cons.mp h
    cases rest with
    | nil => simp [prettyItems, writeItems, hitem level, toList_newLine]
    | cons next rest =>
      simp [prettyItems, writeItems, hitem level, ih hrest, toList_newLine]

theorem prettyFields_eq_write {fields : List (String × Value)}
    (h : ∀ field ∈ fields, ∀ level, (prettyAt level field.2).toList = write .pretty level field.2)
    (level : Nat) : (prettyFields level fields).toList = writeFields .pretty level fields := by
  induction fields with
  | nil => rfl
  | cons field rest ih =>
    obtain ⟨hfield, hrest⟩ := List.forall_mem_cons.mp h
    cases rest with
    | nil => simp [prettyFields, writeFields, hfield level, toList_newLine, Layout.pretty]
    | cons next rest =>
      simp [prettyFields, writeFields, hfield level, ih hrest, toList_newLine, Layout.pretty]

theorem pretty_eq_write (v : Value) (level : Nat) :
    (prettyAt level v).toList = write .pretty level v := by
  induction v using induction generalizing level with
  | null => rfl
  | bool b => cases b <;> rfl
  | number => rfl
  | string => rfl
  | array items ih =>
    cases items with
    | nil => simp [prettyAt, write]
    | cons item rest =>
      simp [prettyAt, write, prettyItems_eq_write ih (level + 1), toList_newLine]
  | object fields ih =>
    cases fields with
    | nil => simp [prettyAt, write]
    | cons field rest =>
      simp [prettyAt, write, prettyFields_eq_write ih (level + 1), toList_newLine]

end Value

end ContractAnalysis.Json
