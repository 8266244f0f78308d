import PlasmaTiler.Topology
import PlasmaTiler.Contract
import PlasmaTiler.CosmicV1
import PlasmaTiler.HintedProjection
import PlasmaTiler.Planner
import PlasmaTiler.Reconcile
import PlasmaTiler.Calls
import PlasmaTiler.Divergence
import PlasmaTiler.Planned
import PlasmaTiler.WorldInvariant
import PlasmaTiler.Idempotence
import PlasmaTiler.Refusal
import PlasmaTiler.Transaction
import PlasmaTiler.Drops
import PlasmaTiler.Agreed
import PlasmaTiler.Assembly
import PlasmaTiler.Transfers
import PlasmaTiler.RoundTrip
import PlasmaTiler.HighlightOrder
import PlasmaTiler.Boards
import PlasmaTiler.ManagedWorkspaces
import PlasmaTiler.Coherence
import PlasmaTiler.Returning
import PlasmaTiler.Frames
import PlasmaTiler.Presentable
import PlasmaTiler.SnapHolds
import PlasmaTiler.Effective
import PlasmaTiler.Fitting
import PlasmaTiler.IntentFlow
import PlasmaTiler.WorkspacePartition
import PlasmaTiler.WorkspaceSignal
import PlasmaTiler.WorkspaceMigration
import PlasmaTiler.WorkspaceReturn
import PlasmaTiler.Removal
import PlasmaTiler.PlainProjection
import PlasmaTiler.GapDrop
import PlasmaTiler.ShareHistory
import PlasmaTiler.KeyboardSense
import PlasmaTiler.PointerExact
import PlasmaTiler.PreviewDrop
import PlasmaTiler.AdmissionRule
import PlasmaTiler.HonouredMinimums
import PlasmaTiler.HitTest
import PlasmaTiler.FocusScreen
import PlasmaTiler.TrailingUpkeep
import PlasmaTiler.OutputSelection
import PlasmaTiler.ViewHistory
import PlasmaTiler.CliOverrides
import PlasmaTiler.FloatIntentStore
import PlasmaTiler.WireRefusals
import PlasmaTiler.PayloadAccepted
import PlasmaTiler.HoverCarry
