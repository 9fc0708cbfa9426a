import ContractAnalysis.Proofs.Compilation
import ContractAnalysis.Proofs.Party
import ContractAnalysis.Proofs.Text.Lines

/-!
# Line endings

A document may end its lines with line feeds alone or with carriage returns and line feeds. Its
lines are the same in both cases (`lines_withReturns`), and so are its words, for neither character
is part of a word (`words_withReturns`). Clauses are made of lines and parties are found among the
words, so the whole contract is the same (`compile_withReturns`).
-/

namespace ContractAnalysis

open Text

namespace Text

/-- A text with a carriage return put before each line feed. -/
def withReturns (cs : List Char) : List Char :=
  cs.flatMap fun c => if c = '\n' then ['\r', '\n'] else [c]

theorem withReturns_of_notMem {cs : List Char} (h : '\n' ∉ cs) : withReturns cs = cs := by
  rw [withReturns, List.flatMap_congr (g := fun c => [c]), List.flatMap_singleton']
  exact fun c hc => if_neg (ne_of_mem_of_not_mem hc h)

theorem withReturns_append_feed {line : List Char} (h : '\n' ∉ line) (rest : List Char) :
    withReturns (line ++ '\n' :: rest) = (line ++ ['\r']) ++ '\n' :: withReturns rest := by
  rw [withReturns, List.flatMap_append, ← withReturns, withReturns_of_notMem h,
    List.append_assoc]
  rfl

theorem dropReturn_of_notMem {line : List Char} (h : '\r' ∉ line) : dropReturn line = line :=
  if_neg fun hlast => h (List.mem_of_getLast? hlast)

theorem dropReturn_append_return (line : List Char) : dropReturn (line ++ ['\r']) = line := by
  simp [dropReturn]

theorem lines_withReturns {cs : List Char} (h : '\r' ∉ cs) : lines (withReturns cs) = lines cs := by
  induction cs using line_induction with
  | last cs hfeed => rw [withReturns_of_notMem hfeed]
  | feed line rest hfeed ih =>
    simp only [List.mem_append, List.mem_cons, not_or] at h
    obtain ⟨hline, -, hrest⟩ := h
    have hreturned : '\n' ∉ line ++ ['\r'] := by simp [hfeed]
    rw [withReturns_append_feed hfeed, lines_append_feed hreturned, lines_append_feed hfeed,
      dropReturn_append_return, dropReturn_of_notMem hline, ih hrest]

theorem words_withReturns (cs : List Char) : words (withReturns cs) = words cs := by
  induction cs using line_induction with
  | last cs hfeed => rw [withReturns_of_notMem hfeed]
  | feed line rest hfeed ih =>
    have hreturn : isWord '\r' = false := by decide +kernel
    have hnewline : isWord '\n' = false := by decide +kernel
    rw [withReturns_append_feed hfeed, List.append_assoc, List.singleton_append,
      words_append_cons hreturn, words_cons hnewline, ih, words_append_cons hnewline]

end Text

/-- The document with a carriage return put before each line feed. -/
def Document.withReturns (document : Document) : Document :=
  { document with content := String.ofList (Text.withReturns document.content.toList) }

/-- **The way lines end does not matter**: a document without carriage returns, and the same
document with one before each line feed, are compiled to the same contract and have equally many
lines. -/
theorem compile_withReturns (rules : List FactRule) {document : Document}
    (h : '\r' ∉ document.content.toList) :
    compile rules document.withReturns = compile rules document ∧
      document.withReturns.lineCount = document.lineCount ∧
      ∃ contract, compile FactRule.standard document = .ok contract ∧
        compile FactRule.standard document.withReturns = .ok contract := by
  have hlines : lines document.withReturns.content.toList = lines document.content.toList := by
    rw [Document.withReturns, String.toList_ofList, lines_withReturns h]
  have hclauses : clausesOf document.withReturns.content = clausesOf document.content := by
    rw [clausesOf, clausesOf, NumberedLine.ofText, NumberedLine.ofText, hlines]
  have hparties : partiesIn document.withReturns.content = partiesIn document.content :=
    partiesIn_congr (by rw [Document.withReturns, String.toList_ofList, words_withReturns])
  have hcompile : ∀ rules, compile rules document.withReturns = compile rules document := by
    intro rules
    rw [compile, compile, hclauses, hparties]
  obtain ⟨contract, hok, -⟩ :=
    compile_eq_ok (fun _ => FactRule.keepsId_of_mem_standard) document
  exact ⟨hcompile rules, congrArg List.length hlines, contract, hok,
    (hcompile FactRule.standard).trans hok⟩

theorem compile_withReturns_lease :
    let document : Document := ⟨"lease.txt", "1. Rent\nThe Tenant shall pay.\n"⟩
    document.withReturns.content = "1. Rent\r\nThe Tenant shall pay.\r\n" ∧
      compile FactRule.standard document.withReturns = compile FactRule.standard document := by
  intro document
  have hfree : '\r' ∉ document.content.toList := by decide
  obtain ⟨hcompile, -⟩ := compile_withReturns FactRule.standard hfree
  exact ⟨by decide, hcompile⟩

end ContractAnalysis
