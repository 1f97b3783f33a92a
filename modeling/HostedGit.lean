import HostedGit.Archive.Extract
import HostedGit.Cache
import HostedGit.CallContext
import HostedGit.Client
import HostedGit.CommandLine.Parser
import HostedGit.Config
import HostedGit.Credentials
import HostedGit.Endpoint
import HostedGit.Error
import HostedGit.FileTree
import HostedGit.Idna.Joining
import HostedGit.Json.Record
import HostedGit.Locator
import HostedGit.Main
import HostedGit.Octets
import HostedGit.PathFilter
import HostedGit.Payload
import HostedGit.Program
import HostedGit.Provider
import HostedGit.Redaction
import HostedGit.Reference
import HostedGit.Remote
import HostedGit.Resolver
import HostedGit.Service
import HostedGit.Session
import HostedGit.Status
import HostedGit.Table
import HostedGit.Text.Base64
import HostedGit.Time.Timeline
import HostedGit.Url.Edit
import HostedGit.Proofs.Action
import HostedGit.Proofs.Latest
import HostedGit.Proofs.FileTree
import HostedGit.Proofs.Session.Frame
import HostedGit.Proofs.Session.Received
import HostedGit.Proofs.Cache.History
import HostedGit.Proofs.Service.Run
import HostedGit.Proofs.Service.Frame
import HostedGit.Proofs.Endpoint
import HostedGit.Proofs.Locator.Userinfo
import HostedGit.Proofs.Redaction
import HostedGit.Proofs.Service.Learning
import HostedGit.Proofs.Service.Remembered
import HostedGit.Proofs.Service.Transparent
import HostedGit.Proofs.Service.Interrupted
import HostedGit.Proofs.Service.Coherent
import HostedGit.Proofs.Service.Rejected
import HostedGit.Proofs.Service.Plan
import HostedGit.Proofs.Url.Written
import HostedGit.Proofs.Locator.Written
import HostedGit.Proofs.Locator.Dialects
import HostedGit.Proofs.Text.Composition
import HostedGit.Proofs.Locator.Place
import HostedGit.Proofs.Resolver
import HostedGit.Proofs.Session.Transfer
import HostedGit.Proofs.Service.Download
import HostedGit.Proofs.Locator.Grammar
import HostedGit.Proofs.Text.FormUrlencoded
import HostedGit.Proofs.Endpoint.Query
import HostedGit.Proofs.Service.Parallel
import HostedGit.Proofs.Service.Authorized
import HostedGit.Proofs.Service.Origin
import HostedGit.Proofs.Resolver.Nested
import HostedGit.Proofs.Resolver.Secrecy
import HostedGit.Proofs.Session.Twin
import HostedGit.Proofs.CommandLine.Environment
import HostedGit.Proofs.CommandLine.Scan
import HostedGit.Proofs.CommandLine.Written
import HostedGit.Proofs.Program
import HostedGit.Proofs.Archive.Containment
import HostedGit.Proofs.Service.Narrowing
import HostedGit.Proofs.Service.Streaming
import HostedGit.Proofs.Time.Acts
import HostedGit.Proofs.Json.Text
import HostedGit.Proofs.Json.Skip
import HostedGit.Proofs.Json.Read
import HostedGit.Proofs.Payload
import HostedGit.Proofs.Service.Listed
import HostedGit.Proofs.Service.Root
import HostedGit.Proofs.Archive.Files
import HostedGit.Proofs.Archive.Repeated
import HostedGit.Proofs.Archive.Escaping
import HostedGit.Proofs.Redaction.Span
import HostedGit.Proofs.Time.Deadline
