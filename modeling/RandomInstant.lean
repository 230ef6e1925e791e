import RandomInstant.Main
import RandomInstant.Program.Session
import RandomInstant.Proofs.Choice.Conduct
import RandomInstant.Proofs.Program.Drawn
import RandomInstant.Proofs.Program.Numbered
import RandomInstant.Proofs.Program.Totality
import RandomInstant.Proofs.Grammar.Derivation
import RandomInstant.Proofs.Program.Language
import RandomInstant.Proofs.Program.Soundness
import RandomInstant.Proofs.Choice.Uniform
import RandomInstant.Proofs.Choice.Replay
import RandomInstant.Proofs.Program.Faults
import RandomInstant.Proofs.Session.Step
import RandomInstant.Proofs.Session.InPlace
import RandomInstant.Proofs.Session.Names
import RandomInstant.Proofs.Session.Replay
import RandomInstant.Proofs.Token.Cutting
import RandomInstant.Proofs.Token.Joining
import RandomInstant.Proofs.Text.Decimal
import RandomInstant.Proofs.Text.Splitting
import RandomInstant.Proofs.Token.Printed
import RandomInstant.Proofs.Program.Printed
import RandomInstant.Proofs.Program.Restemming
import RandomInstant.Proofs.Program.Account
import RandomInstant.Proofs.Program.Extension
import RandomInstant.Proofs.Program.Questions
import RandomInstant.Proofs.Program.Termination
import RandomInstant.Proofs.Program.DepthLimit
import RandomInstant.Proofs.Command.Meaning
import RandomInstant.Proofs.Command.Reading
import RandomInstant.Proofs.Command.Contract
import RandomInstant.Proofs.Command.Wording
