import RotSymEnc.MoveLocality
import RotSymEnc.FinalizationMirror
import RotSymEnc.ProfileValidation
import RotSymEnc.NonceIsolation
import RotSymEnc.NonceAllocation
import RotSymEnc.SealSequences
import RotSymEnc.SizeArithmetic
import RotSymEnc.ReturnBinding
import RotSymEnc.CounterRecord
import RotSymEnc.WalshAudit
import RotSymEnc.WalshSubspace
import RotSymEnc.FaultDiagnosis
import RotSymEnc.StreamFaults
import RotSymEnc.FaultComparison
import RotSymEnc.ProfileCommand
import RotSymEnc.ConformanceTranscript
import RotSymEnc.IndependentAgreement
import RotSymEnc.ManagedSeals
import RotSymEnc.FuzzTargets
import RotSymEnc.AmountCoverage
import RotSymEnc.PassTraces
import RotSymEnc.MovePrefixes
import RotSymEnc.KeyTraces
import RotSymEnc.ScoredMoves
import RotSymEnc.HexReaders
import RotSymEnc.MacCommand
import RotSymEnc.CandidateCommand
import RotSymEnc.DelimitedText
import RotSymEnc.VectorCorpora
import RotSymEnc.CbmcContainers
import RotSymEnc.CbmcHarness
import RotSymEnc.CbmcChecks
import RotSymEnc.CbmcCoverage
