import ModalInput.Main
import ModalInput.Key.Notation.Grammar
import ModalInput.Key.Notation.Printer
import ModalInput.Key.Terminal
import ModalInput.Command.Word
import ModalInput.Proofs.Execution
import ModalInput.Proofs.Intake
import ModalInput.Proofs.Keys
import ModalInput.Proofs.Count
import ModalInput.Proofs.Recorded
import ModalInput.Proofs.Run
import ModalInput.Proofs.Effects
import ModalInput.Proofs.Invariant
import ModalInput.Proofs.RepeatLaw
import ModalInput.Proofs.OperatorSequence
import ModalInput.Proofs.OneShot
import ModalInput.Proofs.Outcome
import ModalInput.Proofs.Disposition
import ModalInput.Proofs.Indicator
import ModalInput.Proofs.Refusal
import ModalInput.Proofs.Flag
import ModalInput.Proofs.LeaveReenter
import ModalInput.Proofs.Notation
import ModalInput.Proofs.RoundTrip
import ModalInput.Proofs.Events
import ModalInput.Proofs.CountedLeader
import ModalInput.Proofs.MarkHistory
import ModalInput.Proofs.Control
import ModalInput.Proofs.Clamping
import ModalInput.Proofs.CallBound
import ModalInput.Proofs.SettingsRoutes
import ModalInput.Proofs.ReplayLog
import ModalInput.Proofs.Concatenation
import ModalInput.Proofs.Absorption
import ModalInput.Proofs.VisualModes
import ModalInput.Proofs.Waiting
import ModalInput.Proofs.Recovery
import ModalInput.Proofs.TerminalNotation
import ModalInput.Proofs.EmittedKeys
import ModalInput.Proofs.TraceText
import ModalInput.Proofs.TomlIntegers
import ModalInput.Proofs.SettingsOverlay
import ModalInput.Proofs.AnnouncedText
import ModalInput.Proofs.MarkLetters
import ModalInput.Proofs.OperatorCompletion
