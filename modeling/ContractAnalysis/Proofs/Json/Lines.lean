import ContractAnalysis.Proofs.Json.Layout
import ContractAnalysis.Proofs.Text.Digits
import Mathlib.Data.List.Chain

/-!
# Lines of JSON text

No line of what the pretty printer writes is empty (`noEmptyLine_pretty`). A line ends only in front
of an item, a field or a closing bracket, so there is some text before it and behind it; the line
ends within texts are escaped.

* `NoEmptyLine`: texts that give no empty line between two line ends
-/

namespace ContractAnalysis.Json

/-- Between two line ends, a text gives no empty line. -/
def NoEmptyLine (cs : List Char) : Prop :=
  ('\n' :: (cs ++ ['\n'])).IsChain fun c d => ¬(c = '\n' ∧ d = '\n')

namespace NoEmptyLine

theorem of_notMem {cs : List Char} (hne : cs ≠ []) (h : '\n' ∉ cs) : NoEmptyLine cs := by
  have hline : ∀ c ∈ cs, c ≠ '\n' := fun c hc heq => h (heq ▸ hc)
  have hinside : (cs ++ ['\n']).IsChain fun c d => ¬(c = '\n' ∧ d = '\n') := by
    refine .append (List.Pairwise.isChain ?_) (.singleton _) fun c hc d _ hends => ?_
    · exact List.pairwise_of_forall_mem_list fun c hc d _ hends => hline c hc hends.1
    · exact hline c (List.mem_of_mem_getLast? hc) hends.1
  obtain ⟨c, cs, rfl⟩ := List.exists_cons_of_ne_nil hne
  exact .cons_cons (fun hends => hline c List.mem_cons_self hends.2) hinside

theorem append {before after : List Char} (hbefore : NoEmptyLine before)
    (hafter : NoEmptyLine after) : NoEmptyLine (before ++ after) := by
  rw [NoEmptyLine, ← List.cons_append, List.isChain_append] at hbefore
  obtain ⟨hleft, -, hlast⟩ := hbefore
  rw [NoEmptyLine, List.append_assoc, ← List.cons_append]
  exact hleft.append hafter.tail fun c hc _ _ hends => hlast c hc '\n' rfl ⟨hends.1, rfl⟩

theorem newLine {before after : List Char} (hbefore : NoEmptyLine before)
    (hafter : NoEmptyLine after) : NoEmptyLine (before ++ '\n' :: after) := by
  have hsplit : '\n' :: (before ++ '\n' :: after ++ ['\n']) =
      ('\n' :: before) ++ '\n' :: (after ++ ['\n']) := by simp
  rw [NoEmptyLine, hsplit, List.isChain_split]
  exact ⟨hbefore, hafter⟩

theorem indent {cs : List Char} (h : NoEmptyLine cs) (n : Nat) :
    NoEmptyLine (List.replicate n ' ' ++ cs) := by
  cases n with
  | zero => exact h
  | succ n => exact append (of_notMem (by simp) (by simp)) h

theorem not_infix {cs : List Char} (h : NoEmptyLine cs) : ¬['\n', '\n'] <:+: '\n' :: cs := by
  intro hinfix
  have hwhole : ['\n', '\n'] <:+: '\n' :: (cs ++ ['\n']) := hinfix.trans ⟨[], ['\n'], rfl⟩
  have hchain := List.IsChain.infix h hwhole
  simp at hchain

end NoEmptyLine

/-! ## Values -/

theorem notMem_escapeChar (c : Char) : '\n' ∉ escapeChar c := by
  have hhex : ∀ n < 32, '\n' ≠ hexDigit (n / 16) ∧ '\n' ≠ hexDigit (n % 16) := by decide
  unfold escapeChar
  split_ifs with _ _ _ _ hfeed _ _ hcontrol
  all_goals simp_all [eq_comm]

theorem noEmptyLine_quote (s : String) : NoEmptyLine (quote s).toList := by
  rw [toList_quote]
  refine .of_notMem (by simp) ?_
  simp [escaped, notMem_escapeChar]

theorem noEmptyLine_toString (n : Nat) : NoEmptyLine (toString n).toList := by
  rw [Nat.toString_eq_repr, Nat.toList_repr]
  exact .of_notMem Nat.toDigits_ne_nil fun hmem =>
    absurd (Text.isDigit_of_mem_toDigits hmem) (by decide)

namespace Value

theorem exists_writeItems_pretty {items : List Value} (hne : items ≠ [])
    (h : ∀ item ∈ items, ∀ level, NoEmptyLine (item.write .pretty level)) (level : Nat) :
    ∃ cs, writeItems .pretty level items = '\n' :: cs ∧ NoEmptyLine cs := by
  induction items with
  | nil => contradiction
  | cons item rest ih =>
    obtain ⟨hitem, hrest⟩ := List.forall_mem_cons.mp h
    have hline := (hitem level).indent (2 * level)
    cases rest with
    | nil => exact ⟨_, rfl, hline⟩
    | cons next rest =>
      obtain ⟨cs, hcs, hmore⟩ := ih (List.cons_ne_nil next rest) hrest
      refine ⟨_, rfl, ?_⟩
      have hcomma : NoEmptyLine [','] := .of_notMem (by simp) (by simp)
      rw [hcs]
      simpa using (hline.append hcomma).newLine hmore

theorem exists_writeFields_pretty {fields : List (String × Value)} (hne : fields ≠ [])
    (h : ∀ field ∈ fields, ∀ level, NoEmptyLine (field.2.write .pretty level)) (level : Nat) :
    ∃ cs, writeFields .pretty level fields = '\n' :: cs ∧ NoEmptyLine cs := by
  induction fields with
  | nil => contradiction
  | cons field rest ih =>
    obtain ⟨hfield, hrest⟩ := List.forall_mem_cons.mp h
    have hcolon : NoEmptyLine [':', ' '] := .of_notMem (by simp) (by simp)
    have hline := (((noEmptyLine_quote field.1).append hcolon).append (hfield level)).indent
      (2 * level)
    cases rest with
    | nil => exact ⟨_, rfl, by simpa [Layout.pretty] using hline⟩
    | cons next rest =>
      obtain ⟨cs, hcs, hmore⟩ := ih (List.cons_ne_nil next rest) hrest
      have hcomma : NoEmptyLine [','] := .of_notMem (by simp) (by simp)
      refine ⟨_, rfl, ?_⟩
      rw [hcs]
      simpa [Layout.pretty] using (hline.append hcomma).newLine hmore

theorem noEmptyLine_brackets {opening closing : Char} {inside : List Char}
    (hopening : opening ≠ '\n') (hclosing : closing ≠ '\n') (hinside : NoEmptyLine inside)
    (level : Nat) :
    NoEmptyLine (opening :: ('\n' :: inside ++ (Layout.pretty.gap level ++ [closing]))) := by
  have hfirst : NoEmptyLine [opening] := .of_notMem (by simp) (by simpa using hopening.symm)
  have hlast : NoEmptyLine [closing] := .of_notMem (by simp) (by simpa using hclosing.symm)
  simpa [Layout.pretty] using (hfirst.newLine hinside).newLine (hlast.indent (2 * level))

theorem noEmptyLine_write {v : Value} (h : v.Plain) (level : Nat) :
    NoEmptyLine (v.write .pretty level) := by
  induction h generalizing level with
  | null => exact .of_notMem (by simp [write]) (by simp [write])
  | bool b => cases b <;> exact .of_notMem (by simp [write]) (by simp [write])
  | @natural n _ => exact noEmptyLine_toString n
  | string s => exact noEmptyLine_quote s
  | @array items _ ih =>
    rcases eq_or_ne items [] with rfl | hne
    · exact .of_notMem (by simp [write]) (by simp [write])
    · obtain ⟨cs, hcs, hinside⟩ := exists_writeItems_pretty hne ih (level + 1)
      rw [write, if_neg (by simpa using hne), hcs]
      exact noEmptyLine_brackets (by decide) (by decide) hinside level
  | @object fields _ ih =>
    rcases eq_or_ne fields [] with rfl | hne
    · exact .of_notMem (by simp [write]) (by simp [write])
    · obtain ⟨cs, hcs, hinside⟩ := exists_writeFields_pretty hne ih (level + 1)
      rw [write, if_neg (by simpa using hne), hcs]
      exact noEmptyLine_brackets (by decide) (by decide) hinside level

/-- No line of a plain value is empty. -/
theorem noEmptyLine_pretty {v : Value} (h : v.Plain) : NoEmptyLine v.pretty.toList := by
  rw [pretty, pretty_eq_write]
  exact noEmptyLine_write h 0

end Value

end ContractAnalysis.Json
