import Colonnade.Main
import Colonnade.Migration.Rehearsal
import Colonnade.Migration.Script
import Colonnade.Proofs.CalendarTheorems
import Colonnade.Proofs.LedgerTheorems
import Colonnade.Proofs.ShardTheorems
import Colonnade.Proofs.Watching
import Colonnade.Report.Plan
import Colonnade.Statement.Expression
import Colonnade.Time.Shards
import Colonnade.Proofs.Visits
import Colonnade.Proofs.Walks
import Colonnade.Proofs.MemoryLedger
import Colonnade.Proofs.RunTheorems
import Colonnade.Proofs.HistoryTheorems
import Colonnade.Proofs.BindingTheorems
import Colonnade.Proofs.ComparisonTheorems
import Colonnade.Proofs.FilterTheorems
import Colonnade.Proofs.LayoutTheorems
import Colonnade.Proofs.ChangeShapes
import Colonnade.Proofs.CatalogTheorems
import Colonnade.Proofs.LatestTheorems
import Colonnade.Proofs.LookupTheorems
import Colonnade.Proofs.Scenes
import Colonnade.Proofs.MemoryScenes
import Colonnade.Proofs.SuccessionTheorems
import Colonnade.Proofs.SelectShapes
import Colonnade.Proofs.SortTheorems
import Colonnade.Proofs.SelectParts
import Colonnade.Proofs.Equations
import Colonnade.Proofs.Selections
import Colonnade.Proofs.SelectTheorems
import Colonnade.Proofs.ScriptTheorems
import Colonnade.Proofs.StatementTheorems
import Colonnade.Proofs.CoarsestTheorems
import Colonnade.Proofs.CellOrderTheorems
import Colonnade.Proofs.InsertTheorems
import Colonnade.Proofs.GroupTheorems
import Colonnade.Proofs.NestingTheorems
import Colonnade.Proofs.CommentTheorems
import Colonnade.Proofs.DescriptorTheorems
import Colonnade.Proofs.PreviewTheorems
import Colonnade.Proofs.RowTextTheorems
import Colonnade.Proofs.TargetTheorems
import Colonnade.Proofs.PaginationTheorems
import Colonnade.Proofs.PlaceholderTheorems
import Colonnade.Proofs.RemovalTheorems
import Colonnade.Proofs.NullTheorems
import Colonnade.Proofs.BoundsTheorems
import Colonnade.Proofs.ConditionTheorems
import Colonnade.Proofs.MembershipTheorems
import Colonnade.Proofs.PathTheorems
import Colonnade.Proofs.DiscoveryTheorems
import Colonnade.Proofs.EngineTheorems
import Colonnade.Proofs.RepetitionTheorems
import Colonnade.Proofs.ColumnTheorems
import Colonnade.Proofs.SortKeyTheorems
import Colonnade.Proofs.SeparatorTheorems
import Colonnade.Proofs.PatternTheorems
import Colonnade.Proofs.LiteralTheorems
