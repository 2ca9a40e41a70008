import Libreac.AudioRing
import Libreac.BoxSynth
import Libreac.Burst
import Libreac.Conf
import Libreac.Deadline
import Libreac.FrameRing
import Libreac.Json
import Libreac.Knock
import Libreac.Known
import Libreac.PaceWatch
import Libreac.Pcap
import Libreac.Playout
import Libreac.Proofs.AnnounceProofs
import Libreac.Proofs.AudioRingProofs
import Libreac.Proofs.AudioWireProofs
import Libreac.Proofs.BindingProofs
import Libreac.Proofs.BoxProofs
import Libreac.Proofs.BoxRegProofs
import Libreac.Proofs.BraidProofs
import Libreac.Proofs.BurstProofs
import Libreac.Proofs.CadenceProofs
import Libreac.Proofs.ClassifyProofs
import Libreac.Proofs.ConfProofs
import Libreac.Proofs.ConflictProofs
import Libreac.Proofs.CorruptProofs
import Libreac.Proofs.CounterProofs
import Libreac.Proofs.CourtshipProofs
import Libreac.Proofs.CtrlProofs
import Libreac.Proofs.DeadlineProofs
import Libreac.Proofs.DllProofs
import Libreac.Proofs.DwellProofs
import Libreac.Proofs.EdgeProofs
import Libreac.Proofs.EnrolProofs
import Libreac.Proofs.ForgeryProofs
import Libreac.Proofs.FrameRingProofs
import Libreac.Proofs.GateProofs
import Libreac.Proofs.GeometryProofs
import Libreac.Proofs.HandoverProofs
import Libreac.Proofs.HandshakeProofs
import Libreac.Proofs.HeadampProofs
import Libreac.Proofs.HeadampWireProofs
import Libreac.Proofs.HuntProofs
import Libreac.Proofs.IdentityProofs
import Libreac.Proofs.IfScanProofs
import Libreac.Proofs.KnockProofs
import Libreac.Proofs.LinkProofs
import Libreac.Proofs.ListenProofs
import Libreac.Proofs.MirrorProofs
import Libreac.Proofs.NetlinkProofs
import Libreac.Proofs.OwnerProofs
import Libreac.Proofs.PaceProofs
import Libreac.Proofs.PaceWatchProofs
import Libreac.Proofs.PcapProofs
import Libreac.Proofs.PhantomProofs
import Libreac.Proofs.PlayoutProofs
import Libreac.Proofs.PreampProofs
import Libreac.Proofs.QdiscProofs
import Libreac.Proofs.RateProofs
import Libreac.Proofs.RateTrackProofs
import Libreac.Proofs.ReadoutProofs
import Libreac.Proofs.ReassemblyProofs
import Libreac.Proofs.RecoveryProofs
import Libreac.Proofs.ReplayProofs
import Libreac.Proofs.ResyncProofs
import Libreac.Proofs.RxProofs
import Libreac.Proofs.ScaffoldProofs
import Libreac.Proofs.SceneProofs
import Libreac.Proofs.SegmentProofs
import Libreac.Proofs.SessionProofs
import Libreac.Proofs.SlaveProofs
import Libreac.Proofs.SnapshotProofs
import Libreac.Proofs.StampProofs
import Libreac.Proofs.SurveyProofs
import Libreac.Proofs.TableProofs
import Libreac.Proofs.TagProofs
import Libreac.Proofs.TopoHeardProofs
import Libreac.Proofs.TranscriptProofs
import Libreac.Proofs.WindowProofs
import Libreac.Qdisc
import Libreac.Readout
import Libreac.Segment
import Libreac.Seqlock
import Libreac.Snapshot
import Libreac.Wire
