import KairosBoot.ResparsePreserves
import KairosBoot.ResparseRefusals
import KairosBoot.Sha256Standard
import KairosBoot.ArtifactCache
import KairosBoot.OptimizerFrame
import KairosBoot.TcpFraming
import KairosBoot.RingInvariant
import KairosBoot.WeightedFairness
import KairosBoot.FleetAccounts
import KairosBoot.ReconnectSafety
import KairosBoot.VendorBootRepack
import KairosBoot.SuperMetadataParse
import KairosBoot.SizeReplies
import KairosBoot.FlashSlots
import KairosBoot.FlashGuard
import KairosBoot.SessionCertainty
import KairosBoot.RefusedDownload
import KairosBoot.ReceiveCommit
import KairosBoot.SequentialStreaming
import KairosBoot.UdpUncertain
import KairosBoot.Utf8Validators
