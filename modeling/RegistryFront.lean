import RegistryFront.Access.Group
import RegistryFront.Access.Level
import RegistryFront.Acme.Account
import RegistryFront.Acme.Answers
import RegistryFront.Acme.Authority
import RegistryFront.Acme.ChallengeBoard
import RegistryFront.Acme.ChallengeCertificate
import RegistryFront.Acme.Client
import RegistryFront.Acme.Config
import RegistryFront.Acme.Credentials
import RegistryFront.Acme.Exposure
import RegistryFront.Acme.HttpAnswer
import RegistryFront.Acme.IssueError
import RegistryFront.Acme.Issuer
import RegistryFront.Acme.Line
import RegistryFront.Acme.Order
import RegistryFront.Acme.Polling
import RegistryFront.Acme.Problem
import RegistryFront.Acme.Renewal
import RegistryFront.Acme.Resolver
import RegistryFront.Acme.Run
import RegistryFront.Acme.Script
import RegistryFront.Acme.Serving
import RegistryFront.Acme.Settings
import RegistryFront.Asn1.Der
import RegistryFront.Base64
import RegistryFront.Base64.Strict
import RegistryFront.Command.Arguments
import RegistryFront.Command.Paths
import RegistryFront.Command.Perform
import RegistryFront.Command.Report
import RegistryFront.Decimal.Shortest
import RegistryFront.Digest.Sha256
import RegistryFront.Digest.Sha512
import RegistryFront.Environment.Error
import RegistryFront.Environment.Value
import RegistryFront.Environment.Variable
import RegistryFront.Files.Action
import RegistryFront.Files.Disk
import RegistryFront.Files.Errno
import RegistryFront.Files.Path
import RegistryFront.Json.Choice
import RegistryFront.Json.Fault
import RegistryFront.Json.Numbers
import RegistryFront.Json.Reader
import RegistryFront.Json.Skipping
import RegistryFront.Json.Step
import RegistryFront.Json.Strings
import RegistryFront.Json.Writer
import RegistryFront.Keys.Curve
import RegistryFront.Keys.Edwards
import RegistryFront.Keys.Entropy
import RegistryFront.Keys.Modular
import RegistryFront.Keys.PrivateKey
import RegistryFront.Keys.Rsa
import RegistryFront.Keys.RsaGeneration
import RegistryFront.Main
import RegistryFront.Net.Address
import RegistryFront.Pem.Basic
import RegistryFront.Pem.Leading
import RegistryFront.Pem.Writer
import RegistryFront.Proofs.Access.Grants
import RegistryFront.Proofs.Access.GroupName
import RegistryFront.Proofs.Acme.Accounts
import RegistryFront.Proofs.Acme.Agreement
import RegistryFront.Proofs.Acme.Board
import RegistryFront.Proofs.Acme.Calls
import RegistryFront.Proofs.Acme.Configuration
import RegistryFront.Proofs.Acme.Course
import RegistryFront.Proofs.Acme.Credentials
import RegistryFront.Proofs.Acme.Decision
import RegistryFront.Proofs.Acme.Environment
import RegistryFront.Proofs.Acme.Fields
import RegistryFront.Proofs.Acme.Frame
import RegistryFront.Proofs.Acme.History
import RegistryFront.Proofs.Acme.HttpAnswer
import RegistryFront.Proofs.Acme.InService
import RegistryFront.Proofs.Acme.Issuance
import RegistryFront.Proofs.Acme.Keeping
import RegistryFront.Proofs.Acme.Kept
import RegistryFront.Proofs.Acme.Pacing
import RegistryFront.Proofs.Acme.Preparation
import RegistryFront.Proofs.Acme.Registration
import RegistryFront.Proofs.Acme.Renewal
import RegistryFront.Proofs.Acme.Restart
import RegistryFront.Proofs.Acme.Servable
import RegistryFront.Proofs.Acme.Service
import RegistryFront.Proofs.Acme.Success
import RegistryFront.Proofs.Acme.Ticks
import RegistryFront.Proofs.Acme.Validation
import RegistryFront.Proofs.Acme.Withdrawal
import RegistryFront.Proofs.Asn1.Der
import RegistryFront.Proofs.Base64
import RegistryFront.Proofs.Base64.Bits
import RegistryFront.Proofs.Base64.Strict
import RegistryFront.Proofs.Environment.Value
import RegistryFront.Proofs.Environment.Written
import RegistryFront.Proofs.Files.Effects
import RegistryFront.Proofs.Files.Growth
import RegistryFront.Proofs.Files.Interruption
import RegistryFront.Proofs.Files.Lookup
import RegistryFront.Proofs.Files.Overwriting
import RegistryFront.Proofs.Files.Path
import RegistryFront.Proofs.Files.Rooted
import RegistryFront.Proofs.Files.Sparing
import RegistryFront.Proofs.Files.Tree
import RegistryFront.Proofs.Files.Walk
import RegistryFront.Proofs.Json.Blocks
import RegistryFront.Proofs.Json.Strings
import RegistryFront.Proofs.Keys.PrivateKey
import RegistryFront.Proofs.Keys.Rsa
import RegistryFront.Proofs.Pem.Blocks
import RegistryFront.Proofs.Pem.Layout
import RegistryFront.Proofs.Pem.Leading
import RegistryFront.Proofs.Pem.Sections
import RegistryFront.Proofs.Pem.Texts
import RegistryFront.Proofs.Pem.Writer
import RegistryFront.Proofs.Startup.Identity
import RegistryFront.Proofs.Startup.Roots
import RegistryFront.Proofs.StaticPair.Bootstrap
import RegistryFront.Proofs.StaticPair.Failure
import RegistryFront.Proofs.StaticPair.SelfSigned
import RegistryFront.Proofs.Store.Accounts
import RegistryFront.Proofs.Store.Decision
import RegistryFront.Proofs.Store.Deeds
import RegistryFront.Proofs.Store.Due
import RegistryFront.Proofs.Store.Places
import RegistryFront.Proofs.Store.Record
import RegistryFront.Proofs.Store.Saving
import RegistryFront.Proofs.Store.Shelf
import RegistryFront.Proofs.Store.StoppedSave
import RegistryFront.Proofs.Store.Unlinked
import RegistryFront.Proofs.Table
import RegistryFront.Proofs.Text.Case
import RegistryFront.Proofs.Text.Hex
import RegistryFront.Proofs.Text.Trim
import RegistryFront.Proofs.Text.Utf8
import RegistryFront.Proofs.Time.Calendar
import RegistryFront.Proofs.Time.Instant
import RegistryFront.Proofs.Time.Rfc3339
import RegistryFront.Proofs.X509.Certificate
import RegistryFront.Proofs.X509.Request
import RegistryFront.Startup.Error
import RegistryFront.Startup.Identity
import RegistryFront.Startup.Provider
import RegistryFront.StaticPair.Bootstrap
import RegistryFront.StaticPair.Error
import RegistryFront.StaticPair.Load
import RegistryFront.StaticPair.SelfSigned
import RegistryFront.Store.Basic
import RegistryFront.Store.Record
import RegistryFront.Table
import RegistryFront.Text.Blank
import RegistryFront.Text.Extending
import RegistryFront.Text.Hex
import RegistryFront.Text.Quoted
import RegistryFront.Text.Split
import RegistryFront.Text.Unprintable
import RegistryFront.Text.Utf8
import RegistryFront.Time.Calendar
import RegistryFront.Time.Instant
import RegistryFront.Time.Rfc3339
import RegistryFront.Time.Span
import RegistryFront.Tls.Certified
import RegistryFront.Tls.Handshake
import RegistryFront.Tls.Protocol
import RegistryFront.Tls.ServerName
import RegistryFront.Trust.Roots
import RegistryFront.X509.Builder
import RegistryFront.X509.Certificate
import RegistryFront.X509.Expiry
import RegistryFront.X509.Extension
import RegistryFront.X509.Fault
import RegistryFront.X509.Moment
import RegistryFront.X509.Name
import RegistryFront.X509.Request
import RegistryFront.X509.Summary
