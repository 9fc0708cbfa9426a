import ContractAnalysis.Proofs.FrontEnds

/-!
# Which status the service answers with

Whatever nodes the rules build, an assembly fails only for an id that is taken or for an end of an
edge that is no node (`refusal_of_compile`), and that is the fault of the request. What a reviewer
does is settled before the answer: where it fails, it might as well have found nothing
(`respondIn_tolerant`). So a request for an analysis is refused with status 400 or answered with
status 200, and never fails (`analysis_answered`).
-/

namespace ContractAnalysis

/-! ## Failures of compilation -/

theorem Call.refusal_of_fault? {ids : List String} {call : Call} {failure : Failure}
    (h : call.fault? ids = some failure) :
    ∃ id, failure = .duplicateNode id ∨ failure = .unknownNode id := by
  have hedge : ∀ {source target : String}, edgeFault? ids source target = some failure →
      ∃ id, failure = .duplicateNode id ∨ failure = .unknownNode id := by
    intro source target hfault
    rcases edgeFault?_eq_some_iff.mp hfault with ⟨-, rfl⟩ | ⟨-, -, rfl⟩
    · exact ⟨source, .inr rfl⟩
    · exact ⟨target, .inr rfl⟩
  cases call with
  | addNode node =>
    obtain ⟨-, heq⟩ := Option.ite_none_right_eq_some.mp h
    exact ⟨node.id, .inl (Option.some.inj heq).symm⟩
  | addEdge source target kind => exact hedge h
  | insertEdge edge => exact hedge h

theorem compile_eq_error_iff {rules : List FactRule} {document : Document} {failure : Failure} :
    compile rules document = .error failure ↔
      Call.firstFault? [] (assemblyCalls (clausesOf document.content)
        (extract rules (clausesOf document.content))) = some failure := by
  have hassemble : compile rules document = .error failure ↔
      assemble (clausesOf document.content) (extract rules (clausesOf document.content)) =
        .error failure := by
    simp only [compile]
    cases assemble (clausesOf document.content) (extract rules (clausesOf document.content)) with
    | error other =>
      exact ⟨fun h => congrArg _ (Except.error.inj h), fun h => congrArg _ (Except.error.inj h)⟩
    | ok g =>
      refine iff_of_false (fun h => ?_) (fun h => ?_)
      · cases h
      · cases h
  rw [hassemble, assemble, Graph.performAll_eq_error_iff]
  rfl

/-- Whatever nodes the rules build, what fails is a node or an edge that does not fit. -/
theorem refusal_of_compile {rules : List FactRule} {document : Document} {failure : Failure}
    (h : compile rules document = .error failure) :
    ∃ id, failure = .duplicateNode id ∨ failure = .unknownNode id := by
  obtain ⟨_, call, _, -, -, hfault⟩ :=
    Call.firstFault?_eq_some_iff.mp (compile_eq_error_iff.mp h)
  exact Call.refusal_of_fault? hfault

theorem isRefusal_of_compile {rules : List FactRule} {document : Document} {failure : Failure}
    (h : compile rules document = .error failure) : failure.isRefusal = true := by
  obtain ⟨id, rfl | rfl⟩ := refusal_of_compile h
  · rfl
  · rfl

section

variable {m : Type → Type} [Monad m]

theorem respondIn_posts {request : ServiceRequest} {analyze : AnalyzeRequest}
    (h : request.Posts analyze) (analyst : AnalystIn m) (stamp : Stamp) :
    respondIn analyst stamp request = analyzeReply analyst stamp analyze := by
  have hsize : ¬request.body.utf8ByteSize > greatestBodySize := not_lt.mpr h.size
  rw [respondIn_analyze h.path, if_pos h.method, postReply, h.json, if_neg hsize, h.body]
  rfl

variable [LawfulMonad m]

/-! ## Failures of reviewers -/

/-- A reviewer that finds nothing where another one fails. -/
def ReviewerIn.tolerant (reviewer : ReviewerIn m) : ReviewerIn m :=
  fun request => Except.ok <$> additions <$> reviewer request

/-- The same rules with a reviewer that never fails. -/
def AnalystIn.tolerant (analyst : AnalystIn m) : AnalystIn m :=
  { analyst with reviewer := analyst.reviewer.map ReviewerIn.tolerant }

theorem AnalystIn.run_tolerant (analyst : AnalystIn m) (stamp : Stamp) (document : Document) :
    analyst.tolerant.run stamp document = analyst.run stamp document := by
  obtain ⟨rules, reviewer⟩ := analyst
  cases reviewer with
  | none => rfl
  | some reviewer =>
    have hadded : ∀ request, AnalystIn.added ⟨rules, some reviewer.tolerant⟩ request =
        AnalystIn.added ⟨rules, some reviewer⟩ request := by
      intro request
      simp only [added, ReviewerIn.tolerant, Functor.map_map]
      rfl
    simp only [run, report, tolerant, Option.map_some, hadded]

/-- A failure of the reviewer does not reach the client. -/
theorem respondIn_tolerant (analyst : AnalystIn m) (stamp : Stamp) (request : ServiceRequest) :
    respondIn analyst.tolerant stamp request = respondIn analyst stamp request := by
  have hhealth : healthReply analyst.tolerant = healthReply analyst := by
    funext method
    simp [healthReply, healthOf, AnalystIn.tolerant]
  have hfor : ∀ aiReview stamp document, (analyst.tolerant.for aiReview).run stamp document =
      (analyst.for aiReview).run stamp document := by
    intro aiReview stamp document
    cases aiReview with
    | false => rfl
    | true => exact analyst.run_tolerant stamp document
  have hanalyze : analyzeReply analyst.tolerant stamp = analyzeReply analyst stamp := by
    funext analyze
    rw [analyzeReply, analyzeReply, hfor]
  simp only [respondIn, postReply, hhealth, hanalyze]

/-! ## Status -/

/-- An answer has a status, whatever effects go with it: to set the status changes nothing. -/
def HasStatus (answer : m ServiceReply) (status : Nat) : Prop :=
  (fun reply => { reply with status }) <$> answer = answer

theorem hasStatus_pure (status : Nat) (content : ServiceContent) :
    HasStatus (m := m) (pure ⟨status, content⟩) status := by
  rw [HasStatus, map_pure]

/-- The text of a request is blank, or it cannot be compiled. -/
def AnalyzeRequest.IsRefused (rules : List FactRule) (analyze : AnalyzeRequest) : Prop :=
  Text.isBlankText analyze.text = true ∨
    ∃ failure, compile rules ⟨analyze.sourceName, analyze.text⟩ = .error failure

theorem hasStatus_refused {analyze : AnalyzeRequest} (analyst : AnalystIn m) (stamp : Stamp)
    (h : analyze.IsRefused analyst.rules) :
    HasStatus (analyzeReply analyst stamp analyze) 400 := by
  unfold analyzeReply
  split_ifs with hblank
  · exact hasStatus_pure 400 _
  · obtain ⟨failure, hfailure⟩ := h.resolve_left hblank
    have hrun : (analyst.for analyze.aiReview).run stamp ⟨analyze.sourceName, analyze.text⟩ =
        pure (.error failure) := by
      cases hreview : analyze.aiReview <;>
        simp [AnalystIn.run, AnalystIn.for, AnalystIn.alone, hfailure]
    rw [hrun, map_pure, outcomeReply, if_pos (isRefusal_of_compile hfailure)]
    exact hasStatus_pure 400 _

theorem hasStatus_analyzed {analyze : AnalyzeRequest} (analyst : AnalystIn m) (stamp : Stamp)
    (h : ¬analyze.IsRefused analyst.rules) :
    HasStatus (analyzeReply analyst stamp analyze) 200 := by
  obtain ⟨hblank, hfailure⟩ := not_or.mp h
  obtain ⟨contract, hcompile⟩ :
      ∃ contract, compile analyst.rules ⟨analyze.sourceName, analyze.text⟩ = .ok contract := by
    cases hcompile : compile analyst.rules ⟨analyze.sourceName, analyze.text⟩ with
    | ok contract => exact ⟨contract, rfl⟩
    | error failure => exact absurd ⟨failure, hcompile⟩ hfailure
  have hrun : (analyst.for analyze.aiReview).run stamp ⟨analyze.sourceName, analyze.text⟩ =
      Except.ok <$> (analyst.for analyze.aiReview).report stamp
        ⟨analyze.sourceName, analyze.text⟩ contract := by
    cases hreview : analyze.aiReview <;>
      simp [AnalystIn.run, AnalystIn.for, AnalystIn.alone, hcompile]
  rw [HasStatus, analyzeReply, if_neg hblank, hrun]
  simp only [Functor.map_map]
  rfl

/-- **A request for an analysis is answered with status 200 or refused with status 400.** It is
refused exactly when the text is blank or compilation fails, and compilation fails only for parts
that do not fit; what the reviewer does, and whether it fails, does not count. -/
theorem analysis_answered {request : ServiceRequest} {analyze : AnalyzeRequest}
    (h : request.Posts analyze) (rules : List FactRule) (reviewer : Option (ReviewerIn m))
    (stamp : Stamp) :
    let analyst : AnalystIn m := ⟨rules, reviewer⟩
    let answer := respondIn analyst stamp request
    (analyze.IsRefused rules → HasStatus answer 400) ∧
    (¬analyze.IsRefused rules → HasStatus answer 200) ∧
    (∀ failure, compile rules ⟨analyze.sourceName, analyze.text⟩ = .error failure →
      ∃ id, failure = .duplicateNode id ∨ failure = .unknownNode id) ∧
    respondIn analyst.tolerant stamp request = answer ∧
    (rules = FactRule.standard →
      (¬analyze.IsRefused rules ↔ ∃ c ∈ analyze.text.toList, Text.isBlank c = false)) := by
  intro analyst answer
  have hanswer : answer = analyzeReply analyst stamp analyze := respondIn_posts h analyst stamp
  refine ⟨fun hrefused => hanswer ▸ hasStatus_refused analyst stamp hrefused,
    fun hanalyzed => hanswer ▸ hasStatus_analyzed analyst stamp hanalyzed,
    fun _ => refusal_of_compile, respondIn_tolerant analyst stamp request, ?_⟩
  rintro rfl
  obtain ⟨contract, hcompile, -⟩ := compile_eq_ok
    (fun _ => FactRule.keepsId_of_mem_standard) ⟨analyze.sourceName, analyze.text⟩
  simp [AnalyzeRequest.IsRefused, hcompile, Text.isBlankText]

/-- The reviewer fails. A rule that gives every node the id of a clause is refused. -/
theorem analysis_answered_lease :
    let request : ServiceRequest := { leaseRequest with
      body := (AnalyzeRequest.toJson ⟨"lease.txt", "The Tenant shall pay.", true⟩).compact }
    let fails : Reviewer := fun _ => .error (.review "offline")
    (respond ⟨FactRule.standard, some fails⟩ .zero request).status = 200 ∧
    (respond ⟨[FactRule.obligations.withFixedId "clause_1" "fixed"], some fails⟩ .zero
      request).status = 400 := by
  intro request fails
  have hbody : AnalyzeRequest.ofText request.body =
      .ok ⟨"lease.txt", "The Tenant shall pay.", true⟩ := AnalyzeRequest.ofText_compact _
  have hposts : request.Posts ⟨"lease.txt", "The Tenant shall pay.", true⟩ :=
    ⟨rfl, rfl, by decide, by decide, hbody⟩
  have hstatus : ∀ {answer : Id ServiceReply} {status : Nat}, HasStatus answer status →
      answer.run.status = status := fun h => (congrArg ServiceReply.status h).symm
  constructor
  · obtain ⟨-, hanalyzed, -, -, hblank⟩ :=
      analysis_answered (m := Id) hposts FactRule.standard (some fails) .zero
    exact hstatus (hanalyzed ((hblank rfl).mpr ⟨'T', by decide, by decide⟩))
  · obtain ⟨hrefused, -⟩ := analysis_answered (m := Id) hposts
      [FactRule.obligations.withFixedId "clause_1" "fixed"] (some fails) .zero
    refine hstatus (hrefused (.inr ?_))
    have herror : (compile [FactRule.obligations.withFixedId "clause_1" "fixed"]
        ⟨"lease.txt", "The Tenant shall pay."⟩).toOption.isNone = true := by decide +kernel
    cases hcompile : compile [FactRule.obligations.withFixedId "clause_1" "fixed"]
        ⟨"lease.txt", "The Tenant shall pay."⟩ with
    | ok contract => simp [hcompile, Except.toOption] at herror
    | error failure => exact ⟨failure, rfl⟩

end

end ContractAnalysis
