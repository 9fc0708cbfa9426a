import ContractAnalysis.Codec.Settings
import ContractAnalysis.Proofs.Codec.Report
import ContractAnalysis.Service.Basic

/-!
# The wire format

Every type that is exchanged goes through JSON text without loss (`wireFormat_roundTrips`). What its
values have to keep to is called portable: numbers within the range of their field, and no verbatim
label of a defect that spells a known kind.
-/

namespace ContractAnalysis

open Json

structure Settings.Portable (s : Settings) : Prop where
  timeoutSeconds : s.timeoutSeconds < Nat.pow 2 64
  maxTokens : s.maxTokens < Nat.pow 2 32
  port : s.port < Nat.pow 2 16

theorem Settings.lossless : Lossless Settings.toJson Settings.decoder 1 Settings.Portable := by
  have hport : Lossless .natural (.natural (Nat.pow 2 16)) 0 (· < Nat.pow 2 16) :=
    .natural (by decide)
  refine .record (by decide) (fun s : Settings => .refl _) (fun s hs => ?_) (fun s hs d _ => ?_)
    (fun fields s h => ?_)
  · have htimeout := Lossless.natural64.plain s.timeoutSeconds hs.timeoutSeconds
    have htokens := Lossless.natural32.plain s.maxTokens hs.maxTokens
    have hport := hport.plain s.port hs.port
    simp [htimeout, htokens, hport]
  · have htimeout := Lossless.natural64.decodes s.timeoutSeconds hs.timeoutSeconds d d.zero_le
    have htokens := Lossless.natural32.decodes s.maxTokens hs.maxTokens d d.zero_le
    have hport := hport.decodes s.port hs.port d d.zero_le
    simp [htimeout, htokens, hport]
  · simp only [Option.bind_eq_bind, Option.bind_eq_some_iff] at h
    obtain ⟨_, _, _, _, timeout, htimeout, tokens, htokens, _, _, port, hread, hs⟩ := h
    rw [← Option.some.inj hs]
    exact ⟨Lossless.natural64.portable.required htimeout,
      Lossless.natural32.portable.required htokens, hport.portable.required hread⟩

theorem Health.lossless : Lossless Health.toJson Health.decoder 1 fun _ => True := by
  refine .record (by decide) (fun h : Health => .refl _) (fun h _ => ?_) (fun h _ d _ => ?_)
    (fun _ _ _ => trivial)
  · simp
  · simp

/-! ## Requests -/

theorem AnalyzeRequest.plain_toJson (request : AnalyzeRequest) : request.toJson.Plain :=
  .object (by simp)

theorem AnalyzeRequest.ofSource_toSource (request : AnalyzeRequest) :
    ofSource request.toJson.toSource = .ok request := by
  rfl

theorem AnalyzeRequest.ofText_compact (request : AnalyzeRequest) :
    ofText request.toJson.compact = .ok request := by
  rw [ofText, Value.read_compact request.plain_toJson]
  simp only [ofSource_toSource]
  rfl

theorem AnalyzeRequest.ofText_pretty (request : AnalyzeRequest) :
    ofText request.toJson.pretty = .ok request := by
  rw [ofText, Value.read_pretty request.plain_toJson]
  simp only [ofSource_toSource]
  rfl

theorem AnalyzeRequest.roundTrips :
    RoundTrips AnalyzeRequest.toJson (fun text => (AnalyzeRequest.ofText text).toOption)
      fun _ => True where
  compact request _ := congrArg Except.toOption request.ofText_compact
  pretty request _ := congrArg Except.toOption request.ofText_pretty
  settles _ request _ :=
    ⟨congrArg Except.toOption request.ofText_compact,
      congrArg Except.toOption request.ofText_pretty⟩

/-- Clauses, facts and the nodes that they are, edges, graphs and lists of facts (which have the
form of graphs), findings, metadata, summaries, settings, requests, the state of the service, what
reviewers are shown, and reports are exchanged without loss. -/
theorem wireFormat_roundTrips :
    RoundTrips Clause.toJson Clause.decoder.decodeText Clause.Portable ∧
    RoundTrips Obligation.toJson Obligation.decoder.decodeText (fun o => LineFits o.line) ∧
    RoundTrips Right.toJson Right.decoder.decodeText (fun r => LineFits r.line) ∧
    RoundTrips Condition.toJson Condition.decoder.decodeText (fun c => LineFits c.line) ∧
    RoundTrips Node.toJson Node.decoder.decodeText Node.Portable ∧
    RoundTrips Edge.toJson Edge.decoder.decodeText (fun _ => True) ∧
    RoundTrips Projection.toJson Projection.decoder.decodeText Projection.Portable ∧
    RoundTrips Finding.toJson Finding.decoder.decodeText Finding.Portable ∧
    RoundTrips Metadata.toJson Metadata.decoder.decodeText Metadata.Portable ∧
    RoundTrips SeveritySummary.toJson SeveritySummary.decoder.decodeText
      SeveritySummary.Portable ∧
    RoundTrips Settings.toJson Settings.decoder.decodeText Settings.Portable ∧
    RoundTrips AnalyzeRequest.toJson (fun text => (AnalyzeRequest.ofText text).toOption)
      (fun _ => True) ∧
    RoundTrips Health.toJson Health.decoder.decodeText (fun _ => True) ∧
    RoundTrips ReviewRequest.toJson ReviewRequest.decoder.decodeText ReviewRequest.Portable ∧
    RoundTrips Report.toJson Report.decoder.decodeText Report.Portable :=
  ⟨Clause.lossless.roundTrips (by decide), Obligation.lossless.roundTrips (by decide),
    Right.lossless.roundTrips (by decide), Condition.lossless.roundTrips (by decide),
    Node.lossless.roundTrips (by decide), Edge.lossless.roundTrips (by decide),
    Projection.lossless.roundTrips (by decide), Finding.lossless.roundTrips (by decide),
    Metadata.lossless.roundTrips (by decide), SeveritySummary.lossless.roundTrips (by decide),
    Settings.lossless.roundTrips (by decide), AnalyzeRequest.roundTrips,
    Health.lossless.roundTrips (by decide), ReviewRequest.lossless.roundTrips (by decide),
    Report.lossless.roundTrips (by decide)⟩

/-- A finding of an unknown kind without a recommendation goes through a text. The known kind in
another spelling is settled by the first reading. -/
theorem wireFormat_roundTrips_label :
    let odd : Finding := ⟨.other "Odd \"label\"", .low, "Tab\there", ["obl_1"], [3], none, .ai⟩
    let text := "[\" Hidden_Implications \", \"high\", \"\", [], [], null, \"ai\"]"
    let known : Finding := ⟨.known .hiddenImplications, .high, "", [], [], none, .ai⟩
    Finding.decoder.decodeText odd.toJson.pretty = some odd ∧
    Finding.decoder.decodeText text = some known ∧
    Finding.decoder.decodeText known.toJson.compact = some known := by
  intro odd text known
  obtain ⟨-, -, -, -, -, -, -, hfindings, -⟩ := wireFormat_roundTrips
  have hodd : odd.Portable := by
    refine ⟨fun label hlabel => ?_, by decide⟩
    obtain rfl := Defect.other.inj hlabel
    decide +kernel
  have hread : Finding.decoder.decodeText text = some known := by decide +kernel
  exact ⟨hfindings.pretty odd hodd, hread, (hfindings.settles text known hread).1⟩

end ContractAnalysis
