import Parley.Main
import Parley.Proofs.Conversation.Agenda
import Parley.Proofs.Conversation.Change
import Parley.Proofs.Conversation.Ending
import Parley.Proofs.Conversation.HopLimit
import Parley.Proofs.Conversation.Episodes
import Parley.Proofs.Conversation.Picture
import Parley.Proofs.Conversation.Arising
import Parley.Proofs.Conversation.Account
import Parley.Proofs.Conversation.Blocks
import Parley.Proofs.Conversation.Mistakes
import Parley.Proofs.Script.Items
import Parley.Proofs.Script.RoundTrip
import Parley.Proofs.Script.WellFormed
import Parley.Proofs.Script.Normal
import Parley.Proofs.Conversation.Chain
import Parley.Proofs.Conversation.Recast
import Parley.Proofs.Conversation.Reroute
import Parley.Proofs.Conversation.CodeStart
import Parley.Proofs.Conversation.Activation
import Parley.Proofs.Conversation.OneShot
import Parley.Proofs.Conversation.SeenCount
import Parley.Proofs.Script.Filing
import Parley.Proofs.Expr.Grammar
import Parley.Proofs.Expr.Parsing
import Parley.Proofs.Expr.Refusal
import Parley.Proofs.Expr.Typing
import Parley.Proofs.Conversation.Assignment
import Parley.Proofs.Script.Checked
import Parley.Proofs.Conversation.Faultless
import Parley.Proofs.Conversation.Silence
import Parley.Proofs.Conversation.Foresight
import Parley.Proofs.Script.Joining
import Parley.Proofs.Conversation.Observation
import Parley.Proofs.Conversation.Shadowing
import Parley.Proofs.Conversation.DeadExits
import Parley.Proofs.Script.Remarks
import Parley.Proofs.Expr.Tokens
import Parley.Proofs.Script.Enclosed
import Parley.Proofs.Script.Spelling
import Parley.Proofs.Script.Places
import Parley.Proofs.Script.Imported
import Parley.Proofs.Expr.Tiling
import Parley.Proofs.Conversation.Past
import Parley.Proofs.Conversation.Rejected
import Parley.Proofs.Conversation.Arguments
import Parley.Proofs.Script.WrittenCode
import Parley.Proofs.Script.Insertion
import Parley.Proofs.Script.Layout
import Parley.Proofs.Script.Attribution
import Parley.Proofs.Speaker.Claims
import Parley.Proofs.Report.Pointing
import Parley.Proofs.Terminal.Painting
import Parley.Proofs.Terminal.Rounds
import Parley.Proofs.Expr.Names
import Parley.Proofs.Script.OnePass
import Parley.Proofs.Conversation.Recall
import Parley.Proofs.Conversation.Lookup
import Parley.Proofs.Script.TopLevel
