import DependencyQuery.Graph.Input
import DependencyQuery.Graph.Lemmas
import DependencyQuery.Graph.Notation.Writer
import DependencyQuery.Graph.Table
import DependencyQuery.Proofs.Graph.Views
import DependencyQuery.Proofs.Notation.Fixpoint
import DependencyQuery.Proofs.Notation.SameShape
import DependencyQuery.Proofs.Pattern.Limits
import DependencyQuery.Proofs.Search.Absent
import DependencyQuery.Proofs.Search.Distinct
import DependencyQuery.Proofs.Search.Distribution
import DependencyQuery.Proofs.Search.Names
import DependencyQuery.Proofs.Search.Rearrangement
import DependencyQuery.Proofs.Search.Seeding
import DependencyQuery.Proofs.Search.Stops
import DependencyQuery.Proofs.Search.Weakening
import DependencyQuery.Proofs.Settings.Transparency
import DependencyQuery.Proofs.Taxonomy.Loading
import DependencyQuery.Proofs.Walk.Converse
import DependencyQuery.Proofs.Walk.Depths
import DependencyQuery.Request.Answer
import DependencyQuery.Search.Cursor
import DependencyQuery.Taxonomy.English
import DependencyQuery.Proofs.Search.Partitions
import DependencyQuery.Proofs.Request.Truncation
import DependencyQuery.Proofs.Graph.Payload
import DependencyQuery.Proofs.Notation.Mentions
import DependencyQuery.Proofs.Notation.Accounts
import DependencyQuery.Proofs.Notation.Items
import DependencyQuery.Proofs.Pattern.Backslashes
import DependencyQuery.Proofs.Pattern.Faults
