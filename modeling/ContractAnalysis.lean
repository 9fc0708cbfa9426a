import ContractAnalysis.Main
import ContractAnalysis.Proofs.Appending
import ContractAnalysis.Proofs.ArticleLabel
import ContractAnalysis.Proofs.Attribution
import ContractAnalysis.Proofs.CitedLabel
import ContractAnalysis.Proofs.Detection.Contradiction
import ContractAnalysis.Proofs.Detection.Growth
import ContractAnalysis.Proofs.Detection.Lines
import ContractAnalysis.Proofs.Detection.Repetition
import ContractAnalysis.Proofs.Division
import ContractAnalysis.Proofs.FactOrder
import ContractAnalysis.Proofs.Framing
import ContractAnalysis.Proofs.Graph.CycleCover
import ContractAnalysis.Proofs.Graph.CycleNodes
import ContractAnalysis.Proofs.Graph.Order
import ContractAnalysis.Proofs.Graph.Path
import ContractAnalysis.Proofs.LineEndings
import ContractAnalysis.Proofs.Prompt
import ContractAnalysis.Proofs.RecordedLine
import ContractAnalysis.Proofs.References
import ContractAnalysis.Proofs.Reply
import ContractAnalysis.Proofs.Report.Lines
import ContractAnalysis.Proofs.Review
import ContractAnalysis.Proofs.Service
