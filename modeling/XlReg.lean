import XlReg.Lib.Run
import XlReg.Lib.Parties
import XlReg.Lib.Calls
import XlReg.Lib.Index
import XlReg.Lib.Pack
import XlReg.Lib.Text
import XlReg.Lib.Lines
import XlReg.Lib.Script
import XlReg.Spec.Basic
import XlReg.Spec.Packages
import XlReg.Spec.Cluster
import XlReg.Spec.Joins
import XlReg.Spec.Registry
import XlReg.Spec.Handlers
import XlReg.Spec.Creates
import XlReg.Spec.Server
import XlReg.Spec.Startup
import XlReg.Spec.Strings
import XlReg.Spec.MemberNode
import XlReg.Spec.Client
import XlReg.Sanity.Plain
import XlReg.Sanity.PlainTexts
import XlReg.Sanity.Growth
import XlReg.Sanity.Effects
import XlReg.Sanity.Rounds
import XlReg.Sanity.Sessions
import XlReg.Sanity.Registered
import XlReg.Sanity.Requirements
import XlReg.Proofs.Members
import XlReg.Proofs.Clusters
import XlReg.Proofs.Dispatch
import XlReg.Proofs.Protocol
import XlReg.Proofs.Join
import XlReg.Proofs.Size
import XlReg.Proofs.EndPoints
import XlReg.Proofs.Identity
import XlReg.Proofs.JoinRace
import XlReg.Proofs.Views
import XlReg.Proofs.GetReply
import XlReg.Proofs.Atomic
import XlReg.Proofs.Replies
import XlReg.Proofs.Limits
import XlReg.Proofs.Filter
import XlReg.Proofs.CreateRace
import XlReg.Proofs.Restart
import XlReg.Proofs.ClientText
import XlReg.Proofs.ClusterText
import XlReg.Proofs.CredText
import XlReg.Proofs.ParserFaults
import XlReg.Sanity.Exchanges
import XlReg.Sanity.SmallSteps
import XlReg.Proofs.Table
import XlReg.Proofs.Refusals
import XlReg.Sanity.Polls
import XlReg.Spec.Joining
import XlReg.Proofs.Complete
import XlReg.Proofs.Tokens
import XlReg.Proofs.Signing
import XlReg.Proofs.Making
import XlReg.Proofs.CreateJoin
import XlReg.Proofs.JoinNamed
import XlReg.Spec.Cnx
import XlReg.Spec.Makers
import XlReg.Proofs.Swallowed
import XlReg.Lib.Stream
import XlReg.Proofs.Delivery
import XlReg.Lib.Refine
import XlReg.Spec.Directory
import XlReg.Proofs.Refines
import XlReg.Proofs.Survival
import XlReg.Proofs.Membership
import XlReg.Lib.Sections
import XlReg.Spec.Concurrent
import XlReg.Sanity.Tasks
import XlReg.Sanity.Interference
import XlReg.Proofs.Interleaved
import XlReg.Proofs.JoinedOnce
import XlReg.Proofs.ClosedLoop
import XlReg.Proofs.Vouched
import XlReg.Proofs.Started
import XlReg.Lib.Proto
import XlReg.Spec.Link
import XlReg.Sanity.PlainMessages
import XlReg.Proofs.Links
import XlReg.Proofs.Wire
