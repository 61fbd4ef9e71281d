import SshCertificateAuthority.CertificatAuthority.AnswerDelivery
import SshCertificateAuthority.CertificatAuthority.Authority
import SshCertificateAuthority.CertificatAuthority.Availability
import SshCertificateAuthority.CertificatAuthority.CaClient
import SshCertificateAuthority.CertificatAuthority.CaServer
import SshCertificateAuthority.CertificatAuthority.CallIndependence
import SshCertificateAuthority.CertificatAuthority.CertificateContents
import SshCertificateAuthority.CertificatAuthority.Conversation
import SshCertificateAuthority.CertificatAuthority.CounterExhaustion
import SshCertificateAuthority.CertificatAuthority.Data
import SshCertificateAuthority.CertificatAuthority.Deserialization
import SshCertificateAuthority.CertificatAuthority.EnvelopeUniqueness
import SshCertificateAuthority.CertificatAuthority.Environment
import SshCertificateAuthority.CertificatAuthority.Exchange
import SshCertificateAuthority.CertificatAuthority.HostConfigReader
import SshCertificateAuthority.CertificatAuthority.InventoryContainment
import SshCertificateAuthority.CertificatAuthority.InventoryPattern
import SshCertificateAuthority.CertificatAuthority.InventorySearch
import SshCertificateAuthority.CertificatAuthority.Ipc
import SshCertificateAuthority.CertificatAuthority.KeyIdentity
import SshCertificateAuthority.CertificatAuthority.Linearization
import SshCertificateAuthority.CertificatAuthority.Messages
import SshCertificateAuthority.CertificatAuthority.PeerIsolation
import SshCertificateAuthority.CertificatAuthority.Quiescence
import SshCertificateAuthority.CertificatAuthority.ReplayProtection
import SshCertificateAuthority.CertificatAuthority.RequestFraming
import SshCertificateAuthority.CertificatAuthority.RequestOrder
import SshCertificateAuthority.CertificatAuthority.ResponseSize
import SshCertificateAuthority.CertificatAuthority.ServedOrders
import SshCertificateAuthority.CertificatAuthority.SshKey
import SshCertificateAuthority.CertificatAuthority.UserDefaultsReader
import SshCertificateAuthority.Clients.CertificateRenewal
import SshCertificateAuthority.Clients.CommandLine
import SshCertificateAuthority.Clients.ConcurrentRenewal
import SshCertificateAuthority.Clients.FailingCalls
import SshCertificateAuthority.Clients.RenewedCertificate
import SshCertificateAuthority.Clients.SignKey
import SshCertificateAuthority.Config.ReadConfig
import SshCertificateAuthority.Config.RelativePaths
import SshCertificateAuthority.IdentiyHandlers.PamAuth
import SshCertificateAuthority.Library.Base64
import SshCertificateAuthority.Library.ByteStream
import SshCertificateAuthority.Library.Coroutine
import SshCertificateAuthority.Library.Delimited
import SshCertificateAuthority.Library.FileTable
import SshCertificateAuthority.Library.FileTree
import SshCertificateAuthority.Library.GlobPattern
import SshCertificateAuthority.Library.Outcome
import SshCertificateAuthority.Library.Placeholder
import SshCertificateAuthority.Library.Records
import SshCertificateAuthority.Library.Run
import SshCertificateAuthority.Library.SelfDelimiting
import SshCertificateAuthority.Library.Sequential
import SshCertificateAuthority.Library.ShellArith
import SshCertificateAuthority.Library.ShellWords
import SshCertificateAuthority.Library.Text
import SshCertificateAuthority.Library.TicketQueue
import SshCertificateAuthority.Library.TomlLexer
import SshCertificateAuthority.Library.UnixPath
import SshCertificateAuthority.Library.WrappingCounter
import SshCertificateAuthority.ReadinessCheck
import SshCertificateAuthority.RunServer
import SshCertificateAuthority.RunServerRefinement
import SshCertificateAuthority.ShutdownCleanup
import SshCertificateAuthority.SshServer.Authorisation
import SshCertificateAuthority.SshServer.CertificateDelivery
import SshCertificateAuthority.SshServer.HostNames
import SshCertificateAuthority.SshServer.InventoryLookup
import SshCertificateAuthority.SshServer.KeyDelivery
import SshCertificateAuthority.SshServer.KeySigners
import SshCertificateAuthority.SshServer.PasswordLogin
import SshCertificateAuthority.SshServer.Service
import SshCertificateAuthority.SshServer.ServiceRuns
import SshCertificateAuthority.SshServer.SessionPanics
import SshCertificateAuthority.SshServer.SessionProgress
import SshCertificateAuthority.SshServer.SigningRun
import SshCertificateAuthority.SshServer.SshHandler
import SshCertificateAuthority.SshServer.TemplateModes
import SshCertificateAuthority.SshServer.TemplateRendering
import SshCertificateAuthority.StartupCleanup
import SshCertificateAuthority.TokenAgreement
import SshCertificateAuthority.TokenHandover
