import ScopeFrames.Main
import ScopeFrames.Proofs.Extent
import ScopeFrames.Proofs.Operation
import ScopeFrames.Proofs.Formed
import ScopeFrames.Proofs.Representation
import ScopeFrames.Proofs.Atomic
import ScopeFrames.Proofs.Quiet
import ScopeFrames.Proofs.Program
import ScopeFrames.Proofs.Inside
import ScopeFrames.Proofs.Passage
import ScopeFrames.Proofs.Spelling
import ScopeFrames.Proofs.Acceptance
import ScopeFrames.Proofs.CleanReport
import ScopeFrames.Proofs.Call
import ScopeFrames.Proofs.Excursion
import ScopeFrames.Proofs.Stack
import ScopeFrames.Proofs.Alignment
import ScopeFrames.Proofs.Loss
import ScopeFrames.Proofs.Isolation
import ScopeFrames.Proofs.Lookup
import ScopeFrames.Proofs.WriteOnce
import ScopeFrames.Proofs.Finish
import ScopeFrames.Proofs.Refusals
import ScopeFrames.Proofs.Recorded
import ScopeFrames.Proofs.Telling
import ScopeFrames.Proofs.Conservation
import ScopeFrames.Proofs.Running
import ScopeFrames.Proofs.Preference
import ScopeFrames.Proofs.Halting
import ScopeFrames.Proofs.Shadowing
import ScopeFrames.Proofs.Stranding
import ScopeFrames.Proofs.Gathering
import ScopeFrames.Proofs.Tiling
import ScopeFrames.Proofs.Preview
import ScopeFrames.Proofs.Labelling
import ScopeFrames.Proofs.Renaming
import ScopeFrames.Proofs.Names
import ScopeFrames.Proofs.Heeding
import ScopeFrames.Proofs.Filing
import ScopeFrames.Proofs.Frame
import ScopeFrames.Proofs.Columns
import ScopeFrames.Proofs.Hiding
import ScopeFrames.Proofs.Showing
import ScopeFrames.Proofs.Sections
import ScopeFrames.Proofs.Reading
import ScopeFrames.Proofs.Lines
import ScopeFrames.Proofs.Disclosure
import ScopeFrames.Proofs.Nesting
import ScopeFrames.Proofs.Clipping
