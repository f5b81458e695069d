import Dockboard.Main
import Dockboard.Screen.Frame
import Dockboard.Session.Executor
import Dockboard.Proofs.Stream.Framing
import Dockboard.Proofs.Text.Utf8
import Dockboard.Proofs.Stream.Reading
import Dockboard.Proofs.Session.Keys
import Dockboard.Proofs.Session.Execution
import Dockboard.Proofs.Session.Loads
import Dockboard.Proofs.Session.Operations
import Dockboard.Proofs.Session.Focus
import Dockboard.Proofs.Session.Monitor
import Dockboard.Proofs.Session.Samples
import Dockboard.Proofs.Table.Window
import Dockboard.Proofs.Pager
import Dockboard.Proofs.Pager.Window
import Dockboard.Proofs.Session.Reactions
import Dockboard.Proofs.Session.Ticks
import Dockboard.Proofs.Session.Tokens
import Dockboard.Proofs.Session.Streams
import Dockboard.Proofs.Session.Listing
import Dockboard.Proofs.Session.Rows
import Dockboard.Proofs.Session.Refresh
import Dockboard.Proofs.Session.Scopes
import Dockboard.Proofs.Session.Tasks
import Dockboard.Proofs.Session.TaskLoads
import Dockboard.Proofs.Session.Gathering
import Dockboard.Proofs.Stream.Cutting
import Dockboard.Proofs.Session.Sorting
import Dockboard.Proofs.Session.Background
import Dockboard.Proofs.Screen.Frame
import Dockboard.Proofs.Engine.Course
import Dockboard.Proofs.Swarm.Removal
import Dockboard.Proofs.Pager.Lines
import Dockboard.Proofs.Session.Chronicle
import Dockboard.Proofs.Session.Selection
import Dockboard.Proofs.Session.Marks
import Dockboard.Proofs.Screen.Inks
import Dockboard.Proofs.Screen.Status
import Dockboard.Proofs.Table.Columns
import Dockboard.Proofs.Table.Marks
import Dockboard.Proofs.Table.Selection
import Dockboard.Proofs.Table.Sorting
import Dockboard.Proofs.Session.Reloading
import Dockboard.Proofs.Text.Characters
import Dockboard.Proofs.Text.Carry
import Dockboard.Proofs.Stream.Weaving
import Dockboard.Proofs.Pager.Top
import Dockboard.Proofs.Pager.Following
import Dockboard.Proofs.Pager.Current
import Dockboard.Proofs.Pager.Agreement
import Dockboard.Proofs.Text.Spans
import Dockboard.Proofs.Screen.Marking
import Dockboard.Proofs.Engine.Space
import Dockboard.Proofs.Table.Groups
import Dockboard.Proofs.Swarm.Stacks
import Dockboard.Proofs.Session.Expiry
import Dockboard.Proofs.Prompt.Editing
import Dockboard.Proofs.Text.Mapping
