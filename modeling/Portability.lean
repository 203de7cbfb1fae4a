import Portability.Main
import Portability.Record.Writer
import Portability.Recorder
import Portability.Proofs.Judging
import Portability.Proofs.WellFormed
import Portability.Proofs.QueryReports
import Portability.Proofs.Isolation
import Portability.Proofs.Recording
import Portability.Proofs.Coverage
import Portability.Proofs.SourceOrder
import Portability.Proofs.Termination
import Portability.Proofs.BatchSplit
import Portability.Proofs.Verdicts
import Portability.Proofs.Records
import Portability.Proofs.Locations
import Portability.Proofs.TreeShape
import Portability.Proofs.ScriptGrammar
import Portability.Proofs.RunOutput
import Portability.Proofs.LexicalContext
import Portability.Proofs.OpenMatrix
import Portability.Proofs.BatchOrder
import Portability.Proofs.KeywordCase
import Portability.Proofs.Comments
import Portability.Proofs.QueryOwner
import Portability.Proofs.NextBatch
import Portability.Proofs.NameIdentity
import Portability.Proofs.NameKeys
import Portability.Proofs.VariableTypes
import Portability.Proofs.RuleChoice
import Portability.Proofs.ErrorTracking
import Portability.Proofs.MatrixGrammar
import Portability.Proofs.NameQuoting
import Portability.Proofs.Delivery
import Portability.Proofs.Decoding
import Portability.Proofs.FirstReach
import Portability.Proofs.ValueTexts
import Portability.Proofs.CodeOperands
import Portability.Proofs.SymbolRuns
import Portability.Proofs.VersionChoice
import Portability.Proofs.TokenMerge
