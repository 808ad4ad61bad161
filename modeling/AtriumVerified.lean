import AtriumVerified.Core.Proofs.ReplayProofs
import AtriumVerified.Core.Proofs.SupersessionProofs
import AtriumVerified.Core.Proofs.InstantProofs
import AtriumVerified.Core.Invariants
import AtriumVerified.Core.Proofs.StepProofs
import AtriumVerified.Core.Proofs.IntegrityProofs
import AtriumVerified.Core.Proofs.LiveEdgeProofs
import AtriumVerified.Core.Proofs.StatusProofs
import AtriumVerified.Core.Proofs.LifecycleProofs
import AtriumVerified.Core.Proofs.LookupProofs
import AtriumVerified.Core.Proofs.AuthorityProofs
import AtriumVerified.Server.Projections
import AtriumVerified.Server.Proofs.ProjectionProofs
import AtriumVerified.Server.ReceiptWindow
import AtriumVerified.Server.Proofs.ReceiptWindowProofs
import AtriumVerified.Server.Cluster
import AtriumVerified.Server.Proofs.GateProofs
import AtriumVerified.Server.Proofs.ClusterProofs
import AtriumVerified.Core.Attention
import AtriumVerified.Server.Attention
import AtriumVerified.Core.Proofs.AttentionProofs
import AtriumVerified.Lib.InsertionMap
import AtriumVerified.Loop.Client
import AtriumVerified.Loop.Proofs.ClientProofs
import AtriumVerified.Server.Proofs.AttentionTableProofs
import AtriumVerified.Web.Client
import AtriumVerified.Web.Proofs.MoveProofs
import AtriumVerified.Web.Proofs.TimelineProofs
import AtriumVerified.Core.Drafts
import AtriumVerified.Core.History
import AtriumVerified.Core.Proofs.DraftProofs
import AtriumVerified.Core.Proofs.HistoryProofs
import AtriumVerified.Core.Proofs.OrderProofs
import AtriumVerified.Core.Proofs.NamingProofs
import AtriumVerified.Core.Proofs.VerificationProofs
import AtriumVerified.Core.Acceptance
import AtriumVerified.Core.AttentionSources
import AtriumVerified.Core.Panels
import AtriumVerified.Core.Proofs.AcceptanceProofs
import AtriumVerified.Core.Proofs.BlindProofs
import AtriumVerified.Core.Proofs.PermutationProofs
import AtriumVerified.Core.Proofs.SilenceProofs
import AtriumVerified.Core.Proofs.CorrectionProofs
import AtriumVerified.Core.Corrections
import AtriumVerified.Realtime.Proofs.DeliveryProofs
import AtriumVerified.Realtime.Proofs.HistoryProofs
import AtriumVerified.Lib.Codec
import AtriumVerified.Loop.Journal
import AtriumVerified.Loop.Proofs.JournalProofs
import AtriumVerified.Web.Page
import AtriumVerified.Web.Proofs.PreviewProofs
import AtriumVerified.Web.Outbox
import AtriumVerified.Web.Proofs.OutboxProofs
import AtriumVerified.Lib.Runs
import AtriumVerified.Lib.TwoWay
import AtriumVerified.Realtime.Proofs.SubscriptionProofs
import AtriumVerified.Server.Answers
import AtriumVerified.Server.FanOut
import AtriumVerified.Server.Proofs.AnswerProofs
import AtriumVerified.Server.Proofs.FanOutProofs
import AtriumVerified.Auth.ClientIp
import AtriumVerified.Auth.Proofs.AddressExactProofs
import AtriumVerified.Auth.Proofs.ForwardedChainProofs
import AtriumVerified.Auth.Proofs.NetworkProofs
import AtriumVerified.Auth.Proofs.SpellingProofs
import AtriumVerified.Auth.Proofs.ThrottleProofs
import AtriumVerified.Auth.Authz
import AtriumVerified.Auth.MemberHooks
import AtriumVerified.Auth.Proofs.ReconcileProofs
import AtriumVerified.Auth.Proofs.RoomRoleProofs
import AtriumVerified.Lib.CommonPrefix
import AtriumVerified.Server.MessageReferences
import AtriumVerified.Web.Certify
import AtriumVerified.Web.Proofs.CertifyProofs
import AtriumVerified.Web.Proofs.TypedReferenceProofs
import AtriumVerified.Execution.Accounts
import AtriumVerified.Execution.Coordinator
import AtriumVerified.Execution.Proofs.DrawProofs
import AtriumVerified.Execution.Proofs.OutcomeProofs
import AtriumVerified.Ci.Proofs.UnwrapProofs
import AtriumVerified.Ingest.GithubThread
import AtriumVerified.Ingest.Markdown
import AtriumVerified.Ingest.Proofs.CorpusProofs
import AtriumVerified.Ingest.Proofs.RoundTripProofs
import AtriumVerified.Ingest.Proofs.ThreadProofs
import AtriumVerified.Ingest.Proofs.TranscriptProofs
import AtriumVerified.Lib.Proofs.JsonSplitProofs
import AtriumVerified.Web.Proofs.FingerprintProofs
import AtriumVerified.Ci.Proofs.BackgroundProofs
import AtriumVerified.Ingest.Proofs.AttachmentProofs
import AtriumVerified.Ingest.Proofs.WritableProofs
import AtriumVerified.Execution.Diff
import AtriumVerified.Execution.DiffPayload
import AtriumVerified.Execution.GitDiff
import AtriumVerified.Execution.Proofs.DiffPatchProofs
import AtriumVerified.Execution.Proofs.DiffPayloadProofs
import AtriumVerified.Core.AnswerBinding
import AtriumVerified.Core.Proofs.AlignmentProofs
import AtriumVerified.Core.Proofs.AnswerProofs
import AtriumVerified.Lib.Proofs.SchemaValueRules
import AtriumVerified.Loop.FrameSchema
import AtriumVerified.Loop.Proofs.FrameSchemaProofs
import AtriumVerified.Core.Proofs.AttentionIdProofs
import AtriumVerified.Core.Proofs.BearingProofs
import AtriumVerified.Core.Proofs.CutProofs
import AtriumVerified.Core.Proofs.RevisionProofs
import AtriumVerified.Core.Proofs.SentenceProofs
import AtriumVerified.Lib.SortedPage
import AtriumVerified.Loop.Daemon
import AtriumVerified.Loop.Proofs.DaemonProofs
import AtriumVerified.Server.Interpret
import AtriumVerified.Server.Proofs.InterpretProofs
