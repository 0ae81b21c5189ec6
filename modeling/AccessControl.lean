import AccessControl.SortedMap
import AccessControl.Text.Blank
import AccessControl.Text.Uppercase
import AccessControl.Text.Cut
import AccessControl.Text.Invisible
import AccessControl.Text.Quoted
import AccessControl.Text.Utf8
import AccessControl.Binary.Octets
import AccessControl.Binary.Reader
import AccessControl.Binary.Format
import AccessControl.Privilege.Basic
import AccessControl.Privilege.Set
import AccessControl.Name
import AccessControl.Relation
import AccessControl.Grant
import AccessControl.Statement
import AccessControl.AccessError
import AccessControl.SqlError
import AccessControl.User
import AccessControl.Session
import AccessControl.Requirement
import AccessControl.Authorization
import AccessControl.Concealment
import AccessControl.Metadata.Basic
import AccessControl.Metadata.Encoding
import AccessControl.Store.Channel
import AccessControl.Store.WriteRequest
import AccessControl.Store.Basic
import AccessControl.Directory.Basic
import AccessControl.Directory.Snapshot
import AccessControl.Manager.Basic
import AccessControl.Manager.Listener
import AccessControl.Manager.Node
import AccessControl.Config
import AccessControl.Certificate.Der
import AccessControl.Certificate.Time
import AccessControl.Certificate.Basic
import AccessControl.Certificate.StrictDer
import AccessControl.Certificate.Strict
import AccessControl.Authentication
import AccessControl.Tls.Base64
import AccessControl.Tls.Pem
import AccessControl.Digest.Sha512
import AccessControl.Curve.Modular
import AccessControl.Curve.PrimeOrder
import AccessControl.Curve.Ed25519
import AccessControl.Tls.KeyAlgorithm
import AccessControl.Tls.RsaKey
import AccessControl.Tls.PrivateKey
import AccessControl.Tls.Basic
import AccessControl.Proofs.Authorization
import AccessControl.Proofs.Concealment
import AccessControl.Proofs.Directory
import AccessControl.Proofs.Authentication
import AccessControl.Proofs.Store
import AccessControl.Proofs.Convergence
import AccessControl.Proofs.Atomicity
import AccessControl.Proofs.WellFormed
import AccessControl.Proofs.Agreement
import AccessControl.Proofs.GrantEffect
import AccessControl.Proofs.Encoding
import AccessControl.Proofs.Isolation
import AccessControl.Proofs.Superuser
import AccessControl.Proofs.Creation
import AccessControl.Proofs.Naming
import AccessControl.Proofs.Indices
import AccessControl.Proofs.Independence
import AccessControl.Proofs.Listing
import AccessControl.Proofs.History
import AccessControl.Proofs.Replay
import AccessControl.Proofs.Revocation
import AccessControl.Proofs.Monotonicity
import AccessControl.Proofs.Visibility
import AccessControl.Proofs.Rearrangement
import AccessControl.Proofs.Sharing
import AccessControl.Proofs.Login
import AccessControl.Proofs.ChangeFlag
import AccessControl.Proofs.Truncation
import AccessControl.Proofs.Strictness
import AccessControl.Proofs.Normalization
import AccessControl.Proofs.WrittenNames
import AccessControl.Proofs.Trimming
import AccessControl.Proofs.Settings
import AccessControl.Proofs.Der
import AccessControl.Proofs.CertificateParts
import AccessControl.Proofs.CommonName
