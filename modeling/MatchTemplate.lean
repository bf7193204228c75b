import MatchTemplate.Text.Basic
import MatchTemplate.Text.Bytes
import MatchTemplate.Text.Unprintable
import MatchTemplate.Text.Extending
import MatchTemplate.Text.Quoted
import MatchTemplate.NameTable.Basic
import MatchTemplate.NameTable.Longest
import MatchTemplate.NameTable.Spelled
import MatchTemplate.NameTable.Unset
import MatchTemplate.NameTable.Listing
import MatchTemplate.Match.Basic
import MatchTemplate.Match.Group
import MatchTemplate.Match.Findings
import MatchTemplate.Notice
import MatchTemplate.Template.Token
import MatchTemplate.Template.Reading
import MatchTemplate.Template.Expansion
import MatchTemplate.Template.Equations
import MatchTemplate.Template.Rules
import MatchTemplate.Template.Shape
import MatchTemplate.Template.Closed
import MatchTemplate.Replacement.Edit
import MatchTemplate.Replacement.Basic
import MatchTemplate.Pipeline
import MatchTemplate.Checked.Basic
import MatchTemplate.Checked.Expansion
import MatchTemplate.Checked.Replacement
import MatchTemplate.Proofs.Interpretation
import MatchTemplate.Proofs.RightToLeft
import MatchTemplate.Proofs.CheckedExpansion
import MatchTemplate.Proofs.CheckedReplacement
import MatchTemplate.Proofs.ValueIndependence
import MatchTemplate.Proofs.Concatenation
import MatchTemplate.Proofs.Locality
import MatchTemplate.Proofs.FirstMatch
import MatchTemplate.Proofs.UnsetGroups
import MatchTemplate.Proofs.FirstBracket
import MatchTemplate.Proofs.GroupByGroup
import MatchTemplate.Proofs.Surroundings
import MatchTemplate.Proofs.Verbatim
import MatchTemplate.Proofs.NameAndNumber
import MatchTemplate.Proofs.Equality
import MatchTemplate.Proofs.Recorded
import MatchTemplate.Proofs.Account
import MatchTemplate.Proofs.Selection
