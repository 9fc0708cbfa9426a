import ContractAnalysis.Analysis
import ContractAnalysis.Proofs.Compilation
import ContractAnalysis.Proofs.Severity

/-!
# What a review may change

A reviewer is an action of any monad, so it may keep a state, fail, or look at the world. What it
can do to a report is to append findings (`AnalystIn.run_appends_review`). The calls of a reviewer
are made visible by one that takes them down (`ReviewerIn.noting`).
-/

namespace ContractAnalysis

/-! ## Bookkeeping -/

/-- The numbers in a report agree with its lists. -/
structure Report.Balanced (r : Report) : Prop where
  total : r.summary.total = r.findings.length
  count : ∀ severity,
    r.summary.count severity = r.findings.countP fun finding => finding.severity == severity
  sum : (Severity.ascending.map r.summary.count).sum = r.summary.total
  parties : r.metadata.partyCount = r.parties.length

theorem Report.balanced_ofFindings (stamp : Stamp) (source : String) (clauseCount : Nat)
    (parties : List String) (graph : Projection) (findings : List Finding) :
    (Report.ofFindings stamp ⟨source, clauseCount, parties.length⟩ parties graph
      findings).Balanced where
  total := List.length_map _
  count severity := by
    have hcount := SeveritySummary.count_ofSeverities (findings.map (·.severity)) severity
    rw [List.count, List.countP_map] at hcount
    exact hcount
  sum := (SeveritySummary.sum_count_ofSeverities _).trans rfl
  parties := rfl

theorem clauses_of_compile {rules : List FactRule} {document : Document}
    {contract : CompiledContract} (h : compile rules document = .ok contract) :
    contract.clauses = clausesOf document.content := by
  simp only [compile] at h
  cases hgraph : assemble (clausesOf document.content)
      (extract rules (clausesOf document.content)) with
  | error failure =>
    rw [hgraph] at h
    contradiction
  | ok g =>
    rw [hgraph] at h
    exact Except.ok.inj h ▸ rfl

/-! ## Calls -/

variable {m m' : Type → Type} [Monad m] [Monad m']

/-- A reviewer that also takes down what it is shown. -/
def ReviewerIn.noting (reviewer : ReviewerIn m) : ReviewerIn (StateT (List ReviewRequest) m) :=
  fun request => do
    modify (· ++ [request])
    reviewer request

namespace AnalystIn

/-- A run, and what the reviewer was shown in it, call by call. -/
def runNoting (analyst : AnalystIn m) (stamp : Stamp) (document : Document) :
    m (Except Failure Outcome × List ReviewRequest) :=
  (run ⟨analyst.rules, analyst.reviewer.map ReviewerIn.noting⟩ stamp document).run []

/-- What a run makes of a compiled contract: a report for each list of findings that are added. It
has the findings of the structural checks in front, and the reviewer is asked once about them. -/
structure Appends (analyst : AnalystIn m) (stamp : Stamp) (document : Document)
    (contract : CompiledContract) (report : List Finding → Report) : Prop where
  graph : ∀ added, (report added).graph = contract.graph.projection
  parties : ∀ added, (report added).parties = contract.parties
  findings : ∀ added, (report added).findings = contract.findings ++ added
  clauseCount : ∀ added, (report added).metadata.clauseCount = (clausesOf document.content).length
  balanced : ∀ added, (report added).Balanced
  alone : analyst.reviewer = none →
    analyst.runNoting stamp document = pure (.ok ⟨report [], none⟩, [])
  reviewed : ∀ reviewer, analyst.reviewer = some reviewer →
    let request : ReviewRequest := ⟨contract.graph.projection, document.content, contract.findings⟩
    analyst.runNoting stamp document = do
      match ← reviewer request with
      | .ok added => return (.ok ⟨report added, some request⟩, [request])
      | .error _ => return (.ok ⟨report [], some request⟩, [request])

theorem runNoting_of_error {rules : List FactRule} {document : Document} {failure : Failure}
    (h : compile rules document = .error failure) (reviewer : Option (ReviewerIn m))
    (stamp : Stamp) :
    runNoting ⟨rules, reviewer⟩ stamp document = pure (.error failure, []) := by
  simp [runNoting, run, h]

variable [LawfulMonad m] [LawfulMonad m']

theorem fst_runNoting (analyst : AnalystIn m) (stamp : Stamp) (document : Document) :
    Prod.fst <$> analyst.runNoting stamp document = analyst.run stamp document := by
  obtain ⟨rules, reviewer⟩ := analyst
  cases hcompile : compile rules document with
  | error failure => simp [runNoting, run, hcompile]
  | ok contract =>
    cases reviewer with
    | none => simp [runNoting, run, report, added, hcompile]
    | some reviewer => simp [runNoting, run, report, added, hcompile, ReviewerIn.noting]

/-- The report on a compiled contract to which a reviewer adds findings. -/
def reportWith (stamp : Stamp) (document : Document) (contract : CompiledContract)
    (added : List Finding) : Report :=
  Report.ofFindings stamp ⟨document.source, contract.clauses.length, contract.parties.length⟩
    contract.parties contract.graph.projection (contract.findings ++ added)

theorem appends_reportWith {rules : List FactRule} {document : Document}
    {contract : CompiledContract} (h : compile rules document = .ok contract)
    (reviewer : Option (ReviewerIn m)) (stamp : Stamp) :
    Appends ⟨rules, reviewer⟩ stamp document contract (reportWith stamp document contract) where
  graph _ := rfl
  parties _ := rfl
  findings _ := rfl
  clauseCount _ := congrArg List.length (clauses_of_compile h)
  balanced _ := Report.balanced_ofFindings _ _ _ _ _ _
  alone halone := by
    obtain rfl : reviewer = none := halone
    simp [runNoting, run, report, added, h, reportWith]
  reviewed := by
    rintro reviewer hreviewer request
    obtain rfl := hreviewer
    have hrun : runNoting ⟨rules, some reviewer⟩ stamp document =
        (fun answer => (.ok ⟨reportWith stamp document contract (additions answer), some request⟩,
          [request])) <$> reviewer request := by
      simp [runNoting, run, report, added, h, ReviewerIn.noting, reportWith, request]
    -- Both sides ask the reviewer first. What is left is what they make of the answer.
    rw [hrun, map_eq_pure_bind]
    refine bind_congr fun answer => ?_
    cases answer <;> rfl

/-- **A reviewer can only append.** -/
theorem run_appends_review (rules : List FactRule) (document : Document)
    (reviewer : Option (ReviewerIn m)) (reviewer' : Option (ReviewerIn m'))
    (stamp stamp' : Stamp) :
    let analyst : AnalystIn m := ⟨rules, reviewer⟩
    let analyst' : AnalystIn m' := ⟨rules, reviewer'⟩
    analyst.run stamp document = Prod.fst <$> analyst.runNoting stamp document ∧
    analyst'.run stamp' document = Prod.fst <$> analyst'.runNoting stamp' document ∧
    match compile rules document with
    | .error failure =>
      analyst.runNoting stamp document = pure (.error failure, []) ∧
      analyst'.runNoting stamp' document = pure (.error failure, [])
    | .ok contract =>
      ∃ report report' : List Finding → Report,
        analyst.Appends stamp document contract report ∧
        analyst'.Appends stamp' document contract report' ∧
        ∀ added added', (report added).metadata = (report' added').metadata ∧
          (report added).parties = (report' added').parties ∧
          (report added).graph = (report' added').graph := by
  refine ⟨(fst_runNoting _ _ _).symm, (fst_runNoting _ _ _).symm, ?_⟩
  cases hcompile : compile rules document with
  | error failure =>
    exact ⟨runNoting_of_error hcompile reviewer stamp, runNoting_of_error hcompile reviewer' stamp'⟩
  | ok contract =>
    exact ⟨reportWith stamp document contract, reportWith stamp' document contract,
      appends_reportWith hcompile reviewer stamp, appends_reportWith hcompile reviewer' stamp',
      fun _ _ => ⟨rfl, rfl, rfl⟩⟩

/-- Of two reviewers one adds a finding and one fails. -/
theorem run_appends_review_lease :
    let document : Document := ⟨"lease.txt", "The Tenant shall pay the rent."⟩
    let gap : Finding := ⟨.known .industryStandardGap, .low, "No deposit.", [], [], none, .ai⟩
    ∃ contract outcome outcome', compile FactRule.standard document = .ok contract ∧
      Analyst.run ⟨FactRule.standard, some fun _ => .ok [gap]⟩ .zero document = .ok outcome ∧
      Analyst.run ⟨FactRule.standard, some fun _ => .error (.review "offline")⟩ .zero document =
        .ok outcome' ∧
      outcome.report.findings = contract.findings ++ [gap] ∧
      outcome'.report.findings = contract.findings ∧
      outcome.report.graph = outcome'.report.graph := by
  intro document gap
  obtain ⟨contract, hcompile, -⟩ :=
    compile_eq_ok (fun _ => FactRule.keepsId_of_mem_standard) document
  let adds : ReviewerIn Id := fun _ => .ok [gap]
  let fails : ReviewerIn Id := fun _ => .error (.review "offline")
  obtain ⟨hrun, hrun', h⟩ :=
    run_appends_review FactRule.standard document (some adds) (some fails) .zero .zero
  rw [hcompile] at h
  obtain ⟨report, report', happends, happends', hsame⟩ := h
  rw [happends.reviewed adds rfl] at hrun
  rw [happends'.reviewed fails rfl] at hrun'
  let shown : ReviewRequest := ⟨contract.graph.projection, document.content, contract.findings⟩
  have hadds : Analyst.run ⟨FactRule.standard, some adds⟩ .zero document =
      .ok ⟨report [gap], some shown⟩ := by
    rw [Analyst.run, hrun]
    rfl
  have hfails : Analyst.run ⟨FactRule.standard, some fails⟩ .zero document =
      .ok ⟨report' [], some shown⟩ := by
    rw [Analyst.run, hrun']
    rfl
  refine ⟨contract, _, _, hcompile, hadds, hfails, happends.findings [gap], ?_, ?_⟩
  · exact (happends'.findings []).trans (List.append_nil contract.findings)
  · exact (hsame [gap] []).2.2

end AnalystIn

end ContractAnalysis
