import ScsiSwap.Lib.Codec
import ScsiSwap.Lib.Exec
import ScsiSwap.Lib.Oracle
import ScsiSwap.Lib.Refine
import ScsiSwap.Lib.Schedule
import ScsiSwap.Lib.Triple
import ScsiSwap.Proof.Alive
import ScsiSwap.Proof.Alloc
import ScsiSwap.Proof.BioData
import ScsiSwap.Proof.Burst
import ScsiSwap.Proof.Callers
import ScsiSwap.Proof.Commands
import ScsiSwap.Proof.Completion
import ScsiSwap.Proof.Conserve
import ScsiSwap.Proof.Crash
import ScsiSwap.Proof.Divert
import ScsiSwap.Proof.Faultless
import ScsiSwap.Proof.Flight
import ScsiSwap.Proof.Head
import ScsiSwap.Proof.Keeping
import ScsiSwap.Proof.Lifecycle
import ScsiSwap.Proof.Load
import ScsiSwap.Proof.Locality
import ScsiSwap.Proof.LogApart
import ScsiSwap.Proof.LogCalls
import ScsiSwap.Proof.LogRing
import ScsiSwap.Proof.Masking
import ScsiSwap.Proof.Move
import ScsiSwap.Proof.Ownership
import ScsiSwap.Proof.Persist
import ScsiSwap.Proof.ReadBack
import ScsiSwap.Proof.Restart
import ScsiSwap.Proof.Ring
import ScsiSwap.Proof.Scan
import ScsiSwap.Proof.Sd
import ScsiSwap.Proof.Show
import ScsiSwap.Proof.Sim
import ScsiSwap.Proof.Spans
import ScsiSwap.Proof.Success
import ScsiSwap.Proof.Unreadable
import ScsiSwap.Proof.Volume
import ScsiSwap.Proof.Workers
import ScsiSwap.Spec.Bio
import ScsiSwap.Spec.Flight
import ScsiSwap.Spec.Session
import ScsiSwap.Spec.Sim
import ScsiSwap.Spec.Volume
