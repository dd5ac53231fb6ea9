import Dialogue.Host.Program
import Dialogue.Main
import Dialogue.Text.Lines
import Dialogue.Proofs.Console.Rejected
import Dialogue.Proofs.Console.Choices
import Dialogue.Proofs.Console.Paragraphs
import Dialogue.Proofs.Input.Clearing
import Dialogue.Proofs.Queue.Cleared
import Dialogue.Proofs.Queue.Order
import Dialogue.Proofs.Run.Courses
import Dialogue.Proofs.Run.Completion
import Dialogue.Proofs.Run.Termination
import Dialogue.Proofs.Run.Entries
import Dialogue.Proofs.Run.Threads
import Dialogue.Proofs.Run.Outcomes
import Dialogue.Proofs.Run.Asking
import Dialogue.Proofs.Run.Deferred
import Dialogue.Proofs.Run.Informed
import Dialogue.Proofs.Script.Faults
import Dialogue.Proofs.Script.Reachable
import Dialogue.Proofs.Script.Reached
import Dialogue.Proofs.Script.Acyclic
import Dialogue.Proofs.Script.RoundTrip
import Dialogue.Proofs.Script.Members
import Dialogue.Proofs.Script.Layout
import Dialogue.Proofs.Script.Fields
import Dialogue.Proofs.Script.Loaders
import Dialogue.Proofs.Script.Indexed
import Dialogue.Proofs.Script.DeadOptions
import Dialogue.Proofs.Script.SilentJumps
import Dialogue.Proofs.Session.Requests
import Dialogue.Proofs.Session.Noted
import Dialogue.Proofs.Queue.Notices
import Dialogue.Proofs.Queue.Overlap
import Dialogue.Proofs.Queue.Callers
import Dialogue.Proofs.Queue.Fates
import Dialogue.Proofs.Queue.Diary
import Dialogue.Proofs.Queue.Timetable
import Dialogue.Proofs.Input.Field
import Dialogue.Proofs.Input.Shown
import Dialogue.Proofs.Input.SingleSlot
import Dialogue.Proofs.Input.Closing
import Dialogue.Proofs.Input.Answers
import Dialogue.Proofs.Input.Refused
import Dialogue.Proofs.Session.Histories
import Dialogue.Proofs.Session.Questions
import Dialogue.Proofs.Session.Waiters
import Dialogue.Proofs.Session.Inherited
import Dialogue.Proofs.Session.Awake
import Dialogue.Proofs.Session.Forwarder
import Dialogue.Proofs.Session.Lines
import Dialogue.Proofs.Session.Queued
import Dialogue.Proofs.Session.SeveralLines
import Dialogue.Proofs.Messages.Changes
import Dialogue.Proofs.Messages.Groups
import Dialogue.Proofs.Messages.Overwritten
import Dialogue.Proofs.Messages.Placeholders
import Dialogue.Proofs.Messages.Callbacks
import Dialogue.Proofs.Messages.Buttons
import Dialogue.Proofs.Messages.Forgotten
import Dialogue.Proofs.Messages.Encoded
import Dialogue.Proofs.Command.Grammar
import Dialogue.Proofs.Template.Pieces
import Dialogue.Proofs.Template.Leftovers
import Dialogue.Proofs.Program.Farewell
