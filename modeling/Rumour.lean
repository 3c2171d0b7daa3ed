import Rumour.Random.Sample
import Rumour.Main
import Rumour.Table.Reader
import Rumour.Table.Writer
import Rumour.Epidemic.Words
import Rumour.Sweep.Run
import Rumour.Text.Quoted
import Rumour.Text.Utf8
import Rumour.Text.Count
import Rumour.Random.Coin
import Rumour.Binary.Shortest
import Rumour.Binary.Reading
import Rumour.Proofs.Table.Finish
import Rumour.Proofs.Table.RoundTrip
import Rumour.Proofs.Table.Grammar
import Rumour.Proofs.Table.Verdict
import Rumour.Proofs.Population.Chains
import Rumour.Proofs.Epidemic.Exit
import Rumour.Proofs.Epidemic.HeadStart
import Rumour.Proofs.Epidemic.Words
import Rumour.Proofs.Sweep.Cap
import Rumour.Proofs.Sweep.Schedule
import Rumour.Proofs.Sweep.Split
import Rumour.Proofs.Table.Refusal
import Rumour.Proofs.Storage.Names
import Rumour.Proofs.Table.Shelf
import Rumour.Proofs.Command.Session
import Rumour.Proofs.Table.Truncation
import Rumour.Proofs.Table.LineNumbers
import Rumour.Proofs.Acceptance
import Rumour.Proofs.Population.Phases
import Rumour.Proofs.Epidemic.Resume
import Rumour.Proofs.Epidemic.LookFirst
import Rumour.Proofs.Population.Beside
import Rumour.Proofs.Random.Siblings
import Rumour.Proofs.Epidemic.Faults
import Rumour.Proofs.Epidemic.Writes
import Rumour.Proofs.Command.Given
