import IssueQuery.Files.Tree
import IssueQuery.Main
import IssueQuery.Proofs.Text.Classes
import IssueQuery.Proofs.Token.Rules
import IssueQuery.Proofs.Token.FirstMatch
import IssueQuery.Proofs.Calendar.Notation
import IssueQuery.Proofs.Filter.Acceptance
import IssueQuery.Proofs.Filter.Display
import IssueQuery.Proofs.Filter.Exchange
import IssueQuery.Proofs.Filter.Reread
import IssueQuery.Proofs.Filter.RoundTrip
import IssueQuery.Proofs.Filter.Juxtaposition
import IssueQuery.Proofs.Project.Hygiene
import IssueQuery.Proofs.Project.Store
import IssueQuery.Proofs.Project.Recall
import IssueQuery.Proofs.Token.Beginning
import IssueQuery.Proofs.Filter.Fault
import IssueQuery.Proofs.Filter.Cut
import IssueQuery.Proofs.Filter.Check
import IssueQuery.Proofs.Filter.Value
import IssueQuery.Proofs.Model.Ancestors
import IssueQuery.Proofs.Model.Storage
import IssueQuery.Proofs.Filter.Edits
import IssueQuery.Proofs.Project.Applications
import IssueQuery.Proofs.Filter.Applied
import IssueQuery.Proofs.Project.Reapplication
import IssueQuery.Proofs.Project.Listing
import IssueQuery.Proofs.Issue.Direction
import IssueQuery.Proofs.Issue.LabelSet
import IssueQuery.Proofs.Filter.Rearrangement
import IssueQuery.Proofs.Model.Lineage
import IssueQuery.Proofs.Token.Cover
import IssueQuery.Proofs.Filter.Reordering
import IssueQuery.Proofs.Filter.Quoting
import IssueQuery.Proofs.Filter.Verbatim
import IssueQuery.Proofs.Issue.GroupKey
import IssueQuery.Proofs.Command.Init
import IssueQuery.Proofs.Project.Refusal
import IssueQuery.Proofs.Filter.Parsed
import IssueQuery.Proofs.Filter.Located
import IssueQuery.Proofs.Filter.IssueNumber
import IssueQuery.Proofs.Colour
import IssueQuery.Proofs.Filter.Termination
