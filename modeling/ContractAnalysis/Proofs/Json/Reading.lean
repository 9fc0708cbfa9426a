import ContractAnalysis.Proofs.Json.Layout
import ContractAnalysis.Proofs.Json.Number
import Mathlib.Data.List.DropRight

/-!
# Reading what is written

A value that is written in some layout is read back, whatever follows that does not go on with a
number (`readsBack`), as long as its numbers are written as the reader reads them. So the reader
gets the whole value from what either printer writes (`read_write`, `read_compact`, `read_pretty`).

* `Value.Legible`: values whose numbers are read as they are written
* `Value.ReadsBack`: the statement about one value, in a form that the values around it can use
-/

namespace ContractAnalysis.Json

/-! ## White space -/

theorem skipSpace_append {before : List Char} (hbefore : ∀ c ∈ before, isSpace c = true)
    (rest : List Char) : skipSpace (before ++ rest) = skipSpace rest :=
  List.dropWhile_append_of_pos hbefore

theorem skipSpace_cons {c : Char} (h : isSpace c = false) (rest : List Char) :
    skipSpace (c :: rest) = c :: rest := by
  simp [skipSpace, h]

theorem readValue_skipSpace (fuel : Nat) (cs : List Char) :
    readValue fuel (skipSpace cs) = readValue fuel cs := by
  have hskip : skipSpace (skipSpace cs) = skipSpace cs := List.dropWhile_idempotent isSpace cs
  cases fuel with
  | zero => rw [readValue, readValue]
  | succ fuel => rw [readValue, readValue, hskip]

theorem readValue_append {before : List Char} (hbefore : ∀ c ∈ before, isSpace c = true)
    (fuel : Nat) (rest : List Char) : readValue fuel (before ++ rest) = readValue fuel rest := by
  rw [← readValue_skipSpace, skipSpace_append hbefore, readValue_skipSpace]

theorem readItems_skipSpace (fuel : Nat) (cs : List Char) :
    readItems fuel (skipSpace cs) = readItems fuel cs := by
  cases fuel with
  | zero => rw [readItems, readItems]
  | succ fuel => rw [readItems, readItems, readValue_skipSpace]

theorem readFields_skipSpace (fuel : Nat) (cs : List Char) :
    readFields fuel (skipSpace cs) = readFields fuel cs := by
  have hskip : skipSpace (skipSpace cs) = skipSpace cs := List.dropWhile_idempotent isSpace cs
  cases fuel with
  | zero => rw [readFields, readFields]
  | succ fuel => rw [readFields, readFields, hskip]

theorem readFields_append {before : List Char} (hbefore : ∀ c ∈ before, isSpace c = true)
    (fuel : Nat) (rest : List Char) : readFields fuel (before ++ rest) = readFields fuel rest := by
  rw [← readFields_skipSpace, skipSpace_append hbefore, readFields_skipSpace]

theorem endsNumber_cons {c : Char}
    (h : isDigit c = false ∧ c ≠ '.' ∧ c ≠ 'e' ∧ c ≠ 'E') (rest : List Char) :
    EndsNumber (c :: rest) := fun _ hc => Option.mem_some.mp hc ▸ h

theorem endsNumber_append {before rest : List Char} (hbefore : ∀ c ∈ before, isSpace c = true)
    (hrest : EndsNumber rest) : EndsNumber (before ++ rest) := by
  have hspace : ∀ c, isSpace c = true → isDigit c = false ∧ c ≠ '.' ∧ c ≠ 'e' ∧ c ≠ 'E' := by
    intro c h
    simp only [isSpace, Bool.or_eq_true, beq_iff_eq] at h
    rcases h with ((rfl | rfl) | rfl) | rfl <;> decide
  cases before with
  | nil => exact hrest
  | cons c before => exact endsNumber_cons (hspace c (hbefore c List.mem_cons_self)) _

/-! ## Steps of the reader -/

theorem StartsNumber.ne {c d : Char} (h : StartsNumber c) (hminus : d ≠ '-')
    (hdigit : isDigit d = false) : c ≠ d := by
  rintro rfl
  rcases h with rfl | hd
  · exact hminus rfl
  · exact Bool.false_ne_true (hdigit.symm.trans hd)

theorem StartsNumber.isSpace_eq_false {c : Char} (h : StartsNumber c) : isSpace c = false := by
  simp only [isSpace, Bool.or_eq_false_iff, beq_eq_false_iff_ne]
  exact ⟨⟨⟨h.ne (by decide) rfl, h.ne (by decide) rfl⟩, h.ne (by decide) rfl⟩,
    h.ne (by decide) rfl⟩

theorem readValue_number {c : Char} (hfirst : StartsNumber c) {cs rest : List Char} {n : Source}
    (hread : readNumber (c :: cs) = some (n, rest)) (fuel : Nat) :
    readValue (fuel + 1) (c :: cs) = (n, some rest) := by
  rw [readValue, skipSpace_cons hfirst.isSpace_eq_false]
  split
  · contradiction
  · next heq => exact absurd (List.cons.inj heq).1 (hfirst.ne (by decide) rfl)
  · next heq => exact absurd (List.cons.inj heq).1 (hfirst.ne (by decide) rfl)
  · next heq => exact absurd (List.cons.inj heq).1 (hfirst.ne (by decide) rfl)
  · next heq => exact absurd (List.cons.inj heq).1 (hfirst.ne (by decide) rfl)
  · next heq => exact absurd (List.cons.inj heq).1 (hfirst.ne (by decide) rfl)
  · next heq => exact absurd (List.cons.inj heq).1 (hfirst.ne (by decide) rfl)
  · rw [hread]

theorem readValue_quote {s : Option String} {cs rest : List Char}
    (hread : readString cs = some (s, rest)) (fuel : Nat) :
    readValue (fuel + 1) ('"' :: cs) = (.string s, some rest) := by
  rw [readValue, skipSpace_cons (by decide)]
  simp only [hread]

theorem readValue_array {fuel : Nat} {cs rest : List Char} {items : List Source}
    (hfirst : (skipSpace cs).head? ≠ some ']')
    (hread : readItems fuel cs = ((items, true), some rest)) :
    readValue (fuel + 1) ('[' :: cs) = (.array items true, some rest) := by
  rw [readValue, skipSpace_cons (by decide)]
  simp only
  split
  · next heq => exact absurd (by rw [heq]; rfl) hfirst
  · rw [readItems_skipSpace, hread]

theorem readValue_object {fuel : Nat} {cs rest : List Char} {fields : List (Option String × Source)}
    (hfirst : (skipSpace cs).head? ≠ some '\x7d')
    (hread : readFields fuel cs = ((fields, true), some rest)) :
    readValue (fuel + 1) ('\x7b' :: cs) = (.object fields true, some rest) := by
  rw [readValue, skipSpace_cons (by decide)]
  simp only
  split
  · next heq => exact absurd (by rw [heq]; rfl) hfirst
  · rw [readFields_skipSpace, hread]

theorem readItems_last {fuel : Nat} {cs after rest : List Char} {item : Source}
    (hitem : readValue fuel cs = (item, some after)) (hafter : skipSpace after = ']' :: rest) :
    readItems (fuel + 1) cs = (([item], true), some rest) := by
  rw [readItems, hitem]
  simp only [Option.map_some, hafter]

theorem readItems_more {fuel : Nat} {cs after rest : List Char} {item : Source}
    {items : List Source} (hitem : readValue fuel cs = (item, some (',' :: after)))
    (hrest : readItems fuel after = ((items, true), some rest)) :
    readItems (fuel + 1) cs = ((item :: items, true), some rest) := by
  have hcomma : skipSpace (',' :: after) = ',' :: after := skipSpace_cons (by decide) after
  rw [readItems, hitem]
  simp only [Option.map_some, hcomma, hrest]

theorem readFields_last {fuel : Nat} {cs after rest : List Char} {name : String} {value : Source}
    (hvalue : readValue fuel cs = (value, some after)) (hafter : skipSpace after = '\x7d' :: rest) :
    readFields (fuel + 1) ((quote name).toList ++ (':' :: cs)) =
      (([(some name, value)], true), some rest) := by
  rw [toList_quote, List.cons_append, List.append_assoc, readFields, skipSpace_cons (by decide)]
  simp only [List.singleton_append, readString_escaped, skipSpace_cons (c := ':') (by decide),
    hvalue, Option.map_some, hafter]

theorem readFields_more {fuel : Nat} {cs after rest : List Char} {name : String} {value : Source}
    {fields : List (Option String × Source)}
    (hvalue : readValue fuel cs = (value, some (',' :: after)))
    (hrest : readFields fuel after = ((fields, true), some rest)) :
    readFields (fuel + 1) ((quote name).toList ++ (':' :: cs)) =
      (((some name, value) :: fields, true), some rest) := by
  have hcomma : skipSpace (',' :: after) = ',' :: after := skipSpace_cons (by decide) after
  rw [toList_quote, List.cons_append, List.append_assoc, readFields, skipSpace_cons (by decide)]
  simp only [List.singleton_append, readString_escaped, skipSpace_cons (c := ':') (by decide),
    hvalue, Option.map_some, hcomma, hrest]

/-! ## Values -/

namespace Value

variable {layout : Layout}

theorem itemsToSource_eq (items : List Value) : itemsToSource items = items.map toSource := by
  induction items with
  | nil => rfl
  | cons item items ih => rw [itemsToSource, ih, List.map_cons]

theorem fieldsToSource_eq (fields : List (String × Value)) :
    fieldsToSource fields = fields.map fun field => (some field.1, field.2.toSource) := by
  induction fields with
  | nil => rfl
  | cons field fields ih => rw [fieldsToSource, ih, List.map_cons]

/-- All numbers in a value are read as they are written. -/
inductive Legible : Value → Prop
  | null : Legible .null
  | bool (b : Bool) : Legible (.bool b)
  | number {n : Number} (h : readNumber n.print.toList = some (.number n true, [])) :
    Legible (.number n)
  | string (s : String) : Legible (.string s)
  | array {items : List Value} (h : ∀ item ∈ items, Legible item) : Legible (.array items)
  | object {fields : List (String × Value)} (h : ∀ field ∈ fields, Legible field.2) :
    Legible (.object fields)

theorem Plain.legible {v : Value} (h : v.Plain) : v.Legible := by
  induction h with
  | null => exact .null
  | bool b => exact .bool b
  | @natural n h =>
    have hends : EndsNumber [] := fun _ hc => absurd hc (by simp)
    have hread := readNumber_toString h hends
    rw [List.append_nil] at hread
    exact .number hread
  | string s => exact .string s
  | array _ ih => exact .array ih
  | object _ ih => exact .object ih

/-- A value that is written is read back, whatever follows that does not go on with a number. Twice
the length of the text is fuel enough. -/
def ReadsBack (layout : Layout) (v : Value) : Prop :=
  ∀ level fuel rest, 2 * (v.write layout level).length ≤ fuel + 1 → EndsNumber rest →
    readValue (fuel + 1) (v.write layout level ++ rest) = (v.toSource, some rest)

theorem exists_first {v : Value} (h : v.Legible) (layout : Layout) (level : Nat) :
    ∃ c cs, v.write layout level = c :: cs ∧ isSpace c = false ∧ c ≠ ']' := by
  cases h with
  | null => exact ⟨_, _, rfl, by decide, by decide⟩
  | bool b => cases b <;> exact ⟨_, _, rfl, by decide, by decide⟩
  | number hread =>
    obtain ⟨c, cs, hcs, hfirst⟩ := exists_startsNumber hread
    exact ⟨c, cs, hcs, hfirst.isSpace_eq_false, hfirst.ne (by decide) rfl⟩
  | string s => exact ⟨_, _, toList_quote s, by decide, by decide⟩
  | @array items =>
    cases items with
    | nil => exact ⟨_, _, rfl, by decide, by decide⟩
    | cons item rest => exact ⟨_, _, rfl, by decide, by decide⟩
  | @object fields =>
    cases fields with
    | nil => exact ⟨_, _, rfl, by decide, by decide⟩
    | cons field rest => exact ⟨_, _, rfl, by decide, by decide⟩

theorem length_write_pos {v : Value} (h : v.Legible) (layout : Layout) (level : Nat) :
    0 < (v.write layout level).length := by
  obtain ⟨c, cs, hwrite, -⟩ := exists_first h layout level
  simp [hwrite]

theorem readsBack_number {n : Number} (h : readNumber n.print.toList = some (.number n true, [])) :
    (number n).ReadsBack layout := by
  intro level fuel rest _ hrest
  obtain ⟨c, cs, hcs, hfirst⟩ := exists_startsNumber h
  have hread := readNumber_append h hrest
  change readValue (fuel + 1) (n.print.toList ++ rest) = _
  rw [hcs, List.cons_append] at hread ⊢
  exact readValue_number hfirst hread fuel

theorem readsBack_string (s : String) : (string s).ReadsBack layout := by
  intro level fuel rest _ _
  rw [write, toList_quote, List.cons_append, List.append_assoc]
  exact readValue_quote (readString_escaped s rest) fuel

theorem readItems_write {items : List Value} (hlegible : ∀ item ∈ items, item.Legible)
    (hreads : ∀ item ∈ items, item.ReadsBack layout) (hne : items ≠ []) {level fuel : Nat}
    (hfuel : 2 * (writeItems layout level items).length ≤ fuel) {after : List Char}
    (hafter : ∀ c ∈ after, isSpace c = true) (rest : List Char) :
    readItems (fuel + 1) (writeItems layout level items ++ (after ++ ']' :: rest)) =
      ((itemsToSource items, true), some rest) := by
  induction items generalizing fuel with
  | nil => contradiction
  | cons item more ih =>
    obtain ⟨hitem, hmore⟩ := List.forall_mem_cons.mp hreads
    have hpos := length_write_pos (hlegible item List.mem_cons_self) layout level
    have hgap := readValue_append (layout.isSpace_gap level)
    cases more with
    | nil =>
      rw [writeItems, List.length_append] at hfuel
      obtain ⟨fuel, rfl⟩ : ∃ k, fuel = k + 1 := ⟨fuel - 1, by omega⟩
      have hends : EndsNumber (after ++ ']' :: rest) :=
        endsNumber_append hafter (endsNumber_cons (by decide) _)
      have hread := hitem level fuel _ (by omega) hends
      rw [← hgap] at hread
      rw [writeItems, List.append_assoc]
      exact readItems_last hread ((skipSpace_append hafter _).trans (skipSpace_cons (by decide) _))
    | cons next more =>
      rw [writeItems_cons_cons, List.length_append, List.length_append, List.length_cons] at hfuel
      obtain ⟨fuel, rfl⟩ : ∃ k, fuel = k + 1 := ⟨fuel - 1, by omega⟩
      have hlength : 2 * (writeItems layout level (next :: more)).length ≤ fuel := by omega
      have hrest := ih (fun v hv => hlegible v (List.mem_cons_of_mem item hv)) hmore
        (List.cons_ne_nil next more) hlength
      have hread := hitem level fuel
        (',' :: (writeItems layout level (next :: more) ++ (after ++ ']' :: rest))) (by omega)
        (endsNumber_cons (by decide) _)
      rw [← hgap] at hread
      rw [writeItems_cons_cons, List.append_assoc, List.append_assoc]
      exact readItems_more hread hrest

theorem readFields_write {fields : List (String × Value)}
    (hlegible : ∀ field ∈ fields, field.2.Legible)
    (hreads : ∀ field ∈ fields, field.2.ReadsBack layout) (hne : fields ≠ []) {level fuel : Nat}
    (hfuel : 2 * (writeFields layout level fields).length ≤ fuel) {after : List Char}
    (hafter : ∀ c ∈ after, isSpace c = true) (rest : List Char) :
    readFields (fuel + 1) (writeFields layout level fields ++ (after ++ '\x7d' :: rest)) =
      ((fieldsToSource fields, true), some rest) := by
  have hgap := readFields_append (layout.isSpace_gap level)
  have hcolon := readValue_append layout.isSpace_afterColon
  induction fields generalizing fuel with
  | nil => contradiction
  | cons field more ih =>
    obtain ⟨name, value⟩ := field
    obtain ⟨hvalue, hmore⟩ : value.ReadsBack layout ∧ ∀ field ∈ more, field.2.ReadsBack layout :=
      List.forall_mem_cons.mp hreads
    have hpos := length_write_pos (v := value) (hlegible _ List.mem_cons_self) layout level
    cases more with
    | nil =>
      simp only [writeFields, List.length_append, List.length_cons] at hfuel
      obtain ⟨fuel, rfl⟩ : ∃ k, fuel = k + 1 := ⟨fuel - 1, by omega⟩
      have hends : EndsNumber (after ++ '\x7d' :: rest) :=
        endsNumber_append hafter (endsNumber_cons (by decide) _)
      have hread := hvalue level fuel _ (by omega) hends
      rw [← hcolon] at hread
      rw [writeFields, List.append_assoc, hgap]
      simp only [List.append_assoc, List.cons_append]
      exact readFields_last hread ((skipSpace_append hafter _).trans (skipSpace_cons (by decide) _))
    | cons next more =>
      simp only [writeFields_cons_cons, List.length_append, List.length_cons] at hfuel
      obtain ⟨fuel, rfl⟩ : ∃ k, fuel = k + 1 := ⟨fuel - 1, by omega⟩
      have hlength : 2 * (writeFields layout level (next :: more)).length ≤ fuel := by omega
      have hrest := ih (fun field hfield => hlegible field (List.mem_cons_of_mem _ hfield)) hmore
        (List.cons_ne_nil next more) hlength
      have hread := hvalue level fuel
        (',' :: (writeFields layout level (next :: more) ++ (after ++ '\x7d' :: rest))) (by omega)
        (endsNumber_cons (by decide) _)
      rw [← hcolon] at hread
      rw [writeFields_cons_cons, List.append_assoc, hgap]
      simp only [List.append_assoc, List.cons_append]
      exact readFields_more hread hrest

theorem exists_writeItems (layout : Layout) (level : Nat) (item : Value) (more : List Value) :
    ∃ cs, writeItems layout level (item :: more) =
      layout.gap level ++ (item.write layout level ++ cs) := by
  cases more with
  | nil => exact ⟨[], by rw [writeItems, List.append_nil]⟩
  | cons next more => exact ⟨_, writeItems_cons_cons layout level item next more⟩

theorem exists_writeFields (layout : Layout) (level : Nat) (field : String × Value)
    (more : List (String × Value)) :
    ∃ cs, writeFields layout level (field :: more) = layout.gap level ++ ('"' :: cs) := by
  obtain ⟨name, value⟩ := field
  cases more with
  | nil => exact ⟨_, by rw [writeFields, toList_quote, List.cons_append]⟩
  | cons next more => exact ⟨_, by rw [writeFields_cons_cons, toList_quote, List.cons_append]⟩

theorem readsBack_array {items : List Value} (hlegible : ∀ item ∈ items, item.Legible)
    (hreads : ∀ item ∈ items, item.ReadsBack layout) : (array items).ReadsBack layout := by
  intro level fuel rest hfuel _
  cases items with
  | nil => rfl
  | cons item more =>
    simp only [write, List.isEmpty_cons, Bool.false_eq_true, if_false, List.length_cons,
      List.length_append, List.length_nil] at hfuel
    simp only [write, List.isEmpty_cons, Bool.false_eq_true, if_false, List.cons_append,
      List.append_assoc, List.nil_append]
    obtain ⟨fuel, rfl⟩ : ∃ k, fuel = k + 1 := ⟨fuel - 1, by omega⟩
    have hlength : 2 * (writeItems layout (level + 1) (item :: more)).length ≤ fuel := by omega
    refine readValue_array ?_ (readItems_write hlegible hreads (List.cons_ne_nil item more) hlength
      (layout.isSpace_gap level) rest)
    -- The array is not empty: behind its bracket a value starts.
    obtain ⟨cs, hitems⟩ := exists_writeItems layout (level + 1) item more
    obtain ⟨c, first, hfirst, hspace, hne⟩ :=
      exists_first (hlegible item List.mem_cons_self) layout (level + 1)
    rw [hitems, List.append_assoc, skipSpace_append (layout.isSpace_gap _), hfirst,
      List.cons_append, List.cons_append, skipSpace_cons hspace]
    simpa using hne

theorem readsBack_object {fields : List (String × Value)}
    (hlegible : ∀ field ∈ fields, field.2.Legible)
    (hreads : ∀ field ∈ fields, field.2.ReadsBack layout) : (object fields).ReadsBack layout := by
  intro level fuel rest hfuel _
  cases fields with
  | nil => rfl
  | cons field more =>
    simp only [write, List.isEmpty_cons, Bool.false_eq_true, if_false, List.length_cons,
      List.length_append, List.length_nil] at hfuel
    simp only [write, List.isEmpty_cons, Bool.false_eq_true, if_false, List.cons_append,
      List.append_assoc, List.nil_append]
    obtain ⟨fuel, rfl⟩ : ∃ k, fuel = k + 1 := ⟨fuel - 1, by omega⟩
    have hlength : 2 * (writeFields layout (level + 1) (field :: more)).length ≤ fuel := by omega
    refine readValue_object ?_ (readFields_write hlegible hreads (List.cons_ne_nil field more)
      hlength (layout.isSpace_gap level) rest)
    obtain ⟨cs, hfields⟩ := exists_writeFields layout (level + 1) field more
    rw [hfields, List.append_assoc, skipSpace_append (layout.isSpace_gap _), List.cons_append,
      skipSpace_cons (by decide)]
    simp

/-- A legible value that is written is read back. -/
theorem readsBack {v : Value} (h : v.Legible) (layout : Layout) : v.ReadsBack layout := by
  induction h with
  | null => exact fun _ _ _ _ _ => rfl
  | bool b => cases b <;> exact fun _ _ _ _ _ => rfl
  | number h => exact readsBack_number h
  | string s => exact readsBack_string s
  | array hlegible ih => exact readsBack_array hlegible ih
  | object hlegible ih => exact readsBack_object hlegible ih

/-! ## Whole texts -/

/-- From a legible value that is written in a layout, with white space after it or not, the whole
value is read. -/
theorem read_write_append {v : Value} (h : v.Legible) (layout : Layout) {text : String}
    {after : List Char} (hafter : ∀ c ∈ after, isSpace c = true)
    (htext : text.toList = v.write layout 0 ++ after) : read text = (v.toSource, true) := by
  have hnil : EndsNumber [] := fun _ hc => absurd hc (by simp)
  have hends : EndsNumber after := by
    rw [← List.append_nil after]
    exact endsNumber_append hafter hnil
  have hfuel : 2 * (v.write layout 0).length ≤ 2 * text.toList.length + 1 + 1 := by
    rw [htext, List.length_append]
    omega
  have hread := readsBack h layout 0 (2 * text.toList.length + 1) after hfuel hends
  have hskip : skipSpace after = [] := by
    rw [← List.append_nil after, skipSpace_append hafter]
    rfl
  rw [← htext] at hread
  simp [read, hread, hskip]

theorem read_write {v : Value} (h : v.Legible) (layout : Layout) {text : String}
    (htext : text.toList = v.write layout 0) : read text = (v.toSource, true) :=
  read_write_append h layout (by simp) (htext.trans (List.append_nil _).symm)

theorem read_compact {v : Value} (h : v.Plain) : read v.compact = (v.toSource, true) :=
  read_write h.legible .compact (compact_eq_write v 0)

theorem read_pretty {v : Value} (h : v.Plain) : read v.pretty = (v.toSource, true) :=
  read_write h.legible .pretty (pretty_eq_write v 0)

theorem read_pretty_line {v : Value} (h : v.Plain) :
    read (v.pretty ++ "\n") = (v.toSource, true) := by
  have hspace : ∀ c ∈ ['\n'], isSpace c = true := List.forall_mem_singleton.mpr (by decide)
  have htext : (v.pretty ++ "\n").toList = v.write .pretty 0 ++ ['\n'] := by
    rw [String.toList_append]
    exact congrArg (· ++ ['\n']) (pretty_eq_write v 0)
  exact read_write_append h.legible .pretty hspace htext

end Value

end ContractAnalysis.Json
