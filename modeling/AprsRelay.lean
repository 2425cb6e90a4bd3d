import AprsRelay.Main
import AprsRelay.Proofs.Station.Growth
import AprsRelay.Proofs.Frame.Parts
import AprsRelay.Proofs.Station.Links
import AprsRelay.Proofs.Via.Fields
import AprsRelay.Proofs.Via.FirstKey
import AprsRelay.Proofs.Via.Unspent
import AprsRelay.Proofs.Plan.Clean
import AprsRelay.Proofs.Station.Acceptance
import AprsRelay.Proofs.BlockFile.Lines
import AprsRelay.Proofs.BlockFile.Nesting
import AprsRelay.Proofs.BlockFile.Faithful
import AprsRelay.Proofs.Plan.Declared
import AprsRelay.Proofs.Plan.Interfaces
import AprsRelay.Proofs.Station.Listeners
import AprsRelay.Proofs.Station.Refinement
import AprsRelay.Proofs.Plan.Rules
import AprsRelay.Proofs.Plan.Contents
import AprsRelay.Proofs.Station.Loading
import AprsRelay.Proofs.Station.Transmitters
import AprsRelay.Proofs.BlockFile.Append
import AprsRelay.Proofs.Plan.Moved
import AprsRelay.Proofs.Station.Continued
import AprsRelay.Proofs.Station.Permanence
import AprsRelay.Proofs.Relay.Session
import AprsRelay.Proofs.Program.Display
import AprsRelay.Proofs.Program.Lines
import AprsRelay.Proofs.Frame.Payload
import AprsRelay.Proofs.Station.Future
import AprsRelay.Proofs.Station.Stored
import AprsRelay.Proofs.BlockFile.Alike
import AprsRelay.Proofs.Plan.Alike
import AprsRelay.Proofs.Station.Layout
import AprsRelay.Proofs.Program.Sources
import AprsRelay.Proofs.Via.Table
import AprsRelay.Proofs.Via.Totals
import AprsRelay.Proofs.Frame.Offsets
import AprsRelay.Proofs.Plan.Ledger
import AprsRelay.Proofs.Plan.Walk
import AprsRelay.Proofs.Plan.Report
import AprsRelay.Proofs.Station.Callsigns
import AprsRelay.Proofs.Station.DeadKeys
import AprsRelay.Proofs.Station.Naming
import AprsRelay.Proofs.Via.Stop
import AprsRelay.Proofs.Text.Numerals
import AprsRelay.Proofs.Plan.Numbers
