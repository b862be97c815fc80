import ScriptSignal.Machine
import ScriptSignal.Proofs.Agreement
import ScriptSignal.Proofs.Collections
import ScriptSignal.Proofs.Draining
import ScriptSignal.Proofs.Keys
import ScriptSignal.Proofs.Leaks
import ScriptSignal.Proofs.Modes
import ScriptSignal.Proofs.Refinement
import ScriptSignal.Proofs.Moves
import ScriptSignal.Proofs.Hands
import ScriptSignal.Proofs.Turns
import ScriptSignal.Proofs.Attained
import ScriptSignal.Proofs.Custody
import ScriptSignal.Proofs.Departures
import ScriptSignal.Proofs.Conservation
import ScriptSignal.Proofs.Atomicity
import ScriptSignal.Proofs.Pending
import ScriptSignal.Proofs.Revivals
import ScriptSignal.Proofs.Finalizations
import ScriptSignal.Proofs.Lifetimes
import ScriptSignal.Proofs.Ancestry
import ScriptSignal.Proofs.NewSignals
import ScriptSignal.Proofs.Callbacks
import ScriptSignal.Proofs.Entrances
import ScriptSignal.Proofs.Capacity
import ScriptSignal.Proofs.Rounding
import ScriptSignal.Proofs.Truncation
import ScriptSignal.Proofs.Retention
import ScriptSignal.Proofs.Inscriptions
import ScriptSignal.Proofs.Slots
import ScriptSignal.Proofs.Enrolments
