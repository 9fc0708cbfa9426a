import ContractAnalysis.Codec.Report
import ContractAnalysis.Proofs.Codec.Node
import ContractAnalysis.Proofs.RunId
import ContractAnalysis.Proofs.Severity
import ContractAnalysis.Proofs.Timestamp

/-!
# Findings and reports through JSON

A kind of defect is written as its label, and any text is read as a kind. A label that spells a
known kind in another way is read as that kind, so it is not portable; `Defect.ofLabel` never gives
one.
-/

namespace ContractAnalysis

open Json

theorem Severity.lossless :
    Lossless (fun severity => .string severity.label) Severity.decoder 0 fun _ => True :=
  .named fun severity => by cases severity <;> rfl

theorem Origin.lossless :
    Lossless (fun origin => .string origin.label) Origin.decoder 0 fun _ => True :=
  .named fun origin => by cases origin <;> rfl

theorem RunId.lossless : Lossless (fun id => .string id.render) RunId.decoder 0 fun _ => True :=
  .text (fun id _ => RunId.ofText?_render id) fun _ _ _ => trivial

theorem Timestamp.lossless :
    Lossless (fun t => .string t.render) Timestamp.decoder 0 Timestamp.Exact :=
  .text (fun _ => Timestamp.ofText?_render) fun _ _ => Timestamp.exact_of_ofText?

/-! ## Findings -/

/-- A verbatim label does not spell a known kind. -/
def Defect.Settled (defect : Defect) : Prop :=
  ∀ label, defect = .other label → KnownDefect.ofText? label = none

theorem KnownDefect.ofText?_label (kind : KnownDefect) :
    KnownDefect.ofText? kind.label = some kind := by
  cases kind <;> rfl

theorem Defect.ofLabel_label {defect : Defect} (h : defect.Settled) :
    Defect.ofLabel defect.label = defect := by
  cases defect with
  | known kind => rw [Defect.label, Defect.ofLabel, KnownDefect.ofText?_label]
  | other label => rw [Defect.label, Defect.ofLabel, h label rfl]

theorem Defect.settled_ofLabel (label : String) : (Defect.ofLabel label).Settled := by
  intro other hother
  unfold Defect.ofLabel at hother
  split at hother
  case h_1 => exact Defect.noConfusion hother
  case h_2 hnone => exact Defect.other.inj hother ▸ hnone

structure Finding.Portable (f : Finding) : Prop where
  settled : f.defect.Settled
  lines : ∀ line ∈ f.lines, line < Nat.pow 2 32

theorem Finding.lossless : Lossless Finding.toJson Finding.decoder 2 Finding.Portable := by
  refine .record (by decide) (fun f : Finding => ?_) (fun f hf => ?_) (fun f hf d hd => ?_)
    (fun fields f h => ?_)
  · -- Without a recommendation its field is left out, which keeps the others in order.
    cases f.recommendation with
    | none => simp
    | some text => simp
  · have hlines := Lossless.natural32.list.plain f.lines hf.lines
    cases f.recommendation with
    | none => simp [hlines]
    | some text => simp [hlines]
  · obtain ⟨d, rfl⟩ : ∃ k, d = k + 1 := ⟨d - 1, by omega⟩
    obtain ⟨defect, severity, description, involved, lines, recommendation, origin⟩ := f
    have hdefect : Defect.ofLabel defect.label = defect := Defect.ofLabel_label hf.settled
    have hseverity := Severity.lossless.decodes severity trivial (d + 1) (by omega)
    have hlines := Lossless.natural32.list.decodes lines hf.lines (d + 1) (by omega)
    have horigin := Origin.lossless.decodes origin trivial (d + 1) (by omega)
    cases recommendation with
    | none =>
      simp [hseverity, hlines, horigin, hdefect]
    | some text =>
      simp [hseverity, hlines, horigin, hdefect]
  · simp only [Option.bind_eq_bind, Option.bind_eq_some_iff] at h
    obtain ⟨label, _, _, _, _, _, _, _, lines, hlines, _, _, _, _, hf⟩ := h
    have hsettled := Defect.settled_ofLabel label
    have hfit : ∀ line ∈ lines, line < Nat.pow 2 32 :=
      Lossless.natural32.list.portable.withDefault (fun _ hn => absurd hn List.not_mem_nil) hlines
    rw [← Option.some.inj hf]
    constructor
    · simpa only using hsettled
    · simpa only using hfit

/-! ## Metadata and summaries -/

def Metadata.Portable (m : Metadata) : Prop :=
  m.clauseCount < Nat.pow 2 64 ∧ m.partyCount < Nat.pow 2 64

theorem Metadata.lossless : Lossless Metadata.toJson Metadata.decoder 1 Metadata.Portable := by
  refine .record (by decide) (fun m : Metadata => .refl _) (fun m hm => ?_) (fun m hm d _ => ?_)
    (fun fields m h => ?_)
  · have hclauses := Lossless.natural64.plain m.clauseCount hm.1
    have hparties := Lossless.natural64.plain m.partyCount hm.2
    simp [hclauses, hparties]
  · have hclauses := Lossless.natural64.decodes m.clauseCount hm.1 d d.zero_le
    have hparties := Lossless.natural64.decodes m.partyCount hm.2 d d.zero_le
    simp [hclauses, hparties]
  · simp only [Option.bind_eq_bind, Option.bind_eq_some_iff] at h
    obtain ⟨_, _, clauses, hclauses, parties, hparties, hm⟩ := h
    rw [← Option.some.inj hm]
    exact ⟨Lossless.natural64.portable.required hclauses,
      Lossless.natural64.portable.required hparties⟩

namespace SeverityCounts

def Portable (counts : SeverityCounts) : Prop :=
  ∀ severity, ∀ n ∈ counts.get? severity, n < Nat.pow 2 64

theorem mem_get?_of_mem_toList {counts : SeverityCounts} {severity : Severity} {n : Nat}
    (h : (severity, n) ∈ counts.toList) : n ∈ counts.get? severity := by
  obtain ⟨other, -, hother⟩ := List.mem_filterMap.mp h
  obtain ⟨m, hm, heq⟩ := Option.map_eq_some_iff.mp hother
  obtain ⟨rfl, rfl⟩ := Prod.mk.inj heq
  exact hm

theorem portable_set {counts : SeverityCounts} (h : counts.Portable) {n : Nat}
    (hn : n < Nat.pow 2 64) (severity : Severity) : (counts.set severity n).Portable := by
  intro other m hm
  rw [get?_set] at hm
  split_ifs at hm
  · exact Option.mem_some.mp hm ▸ hn
  · exact h other m hm

theorem foldl_toList (counts : SeverityCounts) :
    counts.toList.foldl (fun counts entry => counts.set entry.1 entry.2) {} = counts := by
  obtain ⟨low, medium, high, critical⟩ := counts
  -- Whichever grades occur, each is set once.
  cases low <;> cases medium <;> cases high <;> cases critical <;> rfl

theorem foldlM_entries {entries : List (Severity × Nat)} (depth : Nat)
    (h : ∀ entry ∈ entries, entry.2 < Nat.pow 2 64) (counts : SeverityCounts) :
    (Value.fieldsToSource (entries.map fun (severity, n) => (severity.label, .natural n))).foldlM
        (fun counts field => do
          let severity ← field.1.bind Severity.ofLabel?
          let n ← Decoder.natural64 depth field.2
          return counts.set severity n) counts =
      some (entries.foldl (fun counts entry => counts.set entry.1 entry.2) counts) := by
  induction entries generalizing counts with
  | nil => rfl
  | cons entry entries ih =>
    obtain ⟨hentry, hentries⟩ := List.forall_mem_cons.mp h
    have hlabel : Severity.ofLabel? entry.1.label = some entry.1 := by
      cases entry.1 <;> rfl
    have hread := Lossless.natural64.decodes entry.2 hentry depth depth.zero_le
    simp only [List.map_cons, Value.fieldsToSource, List.foldlM_cons, Option.bind_some, hlabel,
      hread, Option.bind_eq_bind, Option.pure_def]
    exact ih hentries (counts.set entry.1 entry.2)

theorem portable_of_foldlM {depth : Nat} {fields : List (Option String × Source)}
    {counts final : SeverityCounts} (hcounts : counts.Portable)
    (h : fields.foldlM (fun counts field => do
      let severity ← field.1.bind Severity.ofLabel?
      let n ← Decoder.natural64 depth field.2
      return counts.set severity n) counts = some final) : final.Portable := by
  induction fields generalizing counts with
  | nil => exact Option.some.inj h ▸ hcounts
  | cons field fields ih =>
    simp only [List.foldlM_cons, Option.bind_eq_bind, Option.bind_eq_some_iff] at h
    obtain ⟨next, ⟨severity, -, n, hn, hnext⟩, hrest⟩ := h
    obtain rfl := Option.some.inj hnext
    exact ih (portable_set hcounts (Lossless.natural64.portable _ _ n hn) severity) hrest

theorem lossless : Lossless toJson decoder 1 Portable where
  plain counts hcounts := by
    refine .object fun field hfield => ?_
    obtain ⟨⟨severity, n⟩, hentry, rfl⟩ := List.mem_map.mp hfield
    exact .natural (hcounts severity n (mem_get?_of_mem_toList hentry))
  decodes counts hcounts d hd := by
    obtain ⟨d, rfl⟩ : ∃ k, d = k + 1 := ⟨d - 1, by omega⟩
    have hbound : ∀ entry ∈ counts.toList, entry.2 < Nat.pow 2 64 :=
      fun entry hentry => hcounts entry.1 entry.2 (mem_get?_of_mem_toList hentry)
    exact (foldlM_entries d hbound {}).trans (congrArg some counts.foldl_toList)
  portable depth source counts h := by
    unfold decoder at h
    split at h
    · refine portable_of_foldlM (fun severity n hn => ?_) h
      cases severity <;> contradiction
    · contradiction

end SeverityCounts

def SeveritySummary.Portable (s : SeveritySummary) : Prop :=
  s.total < Nat.pow 2 64 ∧ s.bySeverity.Portable

theorem SeveritySummary.lossless :
    Lossless SeveritySummary.toJson SeveritySummary.decoder 2 SeveritySummary.Portable := by
  refine .record (by decide) (fun s : SeveritySummary => .refl _) (fun s hs => ?_)
    (fun s hs d hd => ?_) (fun fields s h => ?_)
  · have htotal := Lossless.natural64.plain s.total hs.1
    have hcounts := SeverityCounts.lossless.plain s.bySeverity hs.2
    simp [htotal, hcounts]
  · have htotal := Lossless.natural64.decodes s.total hs.1 d d.zero_le
    have hcounts := SeverityCounts.lossless.decodes s.bySeverity hs.2 d hd
    simp [htotal, hcounts]
  · simp only [Option.bind_eq_bind, Option.bind_eq_some_iff] at h
    obtain ⟨total, htotal, counts, hcounts, hs⟩ := h
    rw [← Option.some.inj hs]
    exact ⟨Lossless.natural64.portable.required htotal,
      SeverityCounts.lossless.portable.required hcounts⟩

/-! ## Reports -/

structure Report.Portable (r : Report) : Prop where
  generatedAt : r.stamp.generatedAt.Exact
  metadata : r.metadata.Portable
  graph : r.graph.Portable
  findings : ∀ f ∈ r.findings, f.Portable
  summary : r.summary.Portable

theorem Report.lossless : Lossless Report.toJson Report.decoder 5 Report.Portable := by
  refine .record (by decide) (fun r : Report => .refl _) (fun r hr => ?_) (fun r hr d hd => ?_)
    (fun fields r h => ?_)
  · have hmetadata := Metadata.lossless.plain r.metadata hr.metadata
    have hgraph := Projection.lossless.plain r.graph hr.graph
    have hfindings := Finding.lossless.list.plain r.findings hr.findings
    have hsummary := SeveritySummary.lossless.plain r.summary hr.summary
    simp [Stamp.fields, Report.content, hmetadata, hgraph, hfindings, hsummary]
  · obtain ⟨d, rfl⟩ : ∃ k, d = k + 1 := ⟨d - 1, by omega⟩
    have hid := RunId.lossless.decodes r.stamp.runId trivial (d + 1) (by omega)
    have htime := Timestamp.lossless.decodes r.stamp.generatedAt hr.generatedAt (d + 1) (by omega)
    have hmetadata := Metadata.lossless.decodes r.metadata hr.metadata (d + 1) (by omega)
    have hgraph := Projection.lossless.decodes r.graph hr.graph (d + 1) (by omega)
    have hfindings := Finding.lossless.list.decodes r.findings hr.findings (d + 1) (by omega)
    have hsummary := SeveritySummary.lossless.decodes r.summary hr.summary (d + 1) (by omega)
    simp [Stamp.fields, Report.content, hid, htime, hmetadata, hgraph, hfindings, hsummary]
  · simp only [Option.bind_eq_bind, Option.bind_eq_some_iff] at h
    obtain ⟨_, _, time, htime, metadata, hmetadata, _, _, graph, hgraph, findings, hfindings,
      summary, hsummary, hr⟩ := h
    rw [← Option.some.inj hr]
    exact {
      generatedAt := Timestamp.lossless.portable.required htime
      metadata := Metadata.lossless.portable.required hmetadata
      graph := Projection.lossless.portable.required hgraph
      findings := Finding.lossless.list.portable.required hfindings
      summary := SeveritySummary.lossless.portable.required hsummary }

structure ReviewRequest.Portable (r : ReviewRequest) : Prop where
  graph : r.graph.Portable
  findings : ∀ f ∈ r.findings, f.Portable

theorem ReviewRequest.lossless :
    Lossless ReviewRequest.toJson ReviewRequest.decoder 5 ReviewRequest.Portable := by
  refine .record (by decide) (fun r : ReviewRequest => .refl _) (fun r hr => ?_)
    (fun r hr d hd => ?_) (fun fields r h => ?_)
  · have hgraph := Projection.lossless.plain r.graph hr.graph
    have hfindings := Finding.lossless.list.plain r.findings hr.findings
    simp [hgraph, hfindings]
  · have hgraph := Projection.lossless.decodes r.graph hr.graph d hd
    have hfindings := Finding.lossless.list.decodes r.findings hr.findings d (by omega)
    simp [hgraph, hfindings]
  · simp only [Option.bind_eq_bind, Option.bind_eq_some_iff] at h
    obtain ⟨graph, hgraph, _, _, findings, hfindings, hr⟩ := h
    rw [← Option.some.inj hr]
    exact ⟨Projection.lossless.portable.required hgraph,
      Finding.lossless.list.portable.required hfindings⟩

end ContractAnalysis
