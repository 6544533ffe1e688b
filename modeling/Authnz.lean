import Authnz.Basis.Prog
import Authnz.Basis.Interleave
import Authnz.Basis.Watch
import Authnz.Basis.Books
import Authnz.Basis.ReadCommitted
import Authnz.Basis.Alone
import Authnz.Basis.Effects
import Authnz.Basis.Journal
import Authnz.Basis.Lineage
import Authnz.Basis.Twins
import Authnz.Basis.Text
import Authnz.Basis.Once
import Authnz.Basis.Unique
import Authnz.Basis.Evolve
import Authnz.Basis.Warrants
import Authnz.Basis.Waiting
import Authnz.Basis.Moments
import Authnz.Basis.Lives
import Authnz.Basis.Deeds
import Authnz.Model.Records
import Authnz.Model.World
import Authnz.Model.Token
import Authnz.Model.Jwt
import Authnz.Model.Users
import Authnz.Model.Sessions
import Authnz.Model.Http
import Authnz.Model.Handlers
import Authnz.Model.Passwdless
import Authnz.Model.Passkey
import Authnz.Model.Requests
import Authnz.Model.Concurrent
import Authnz.Model.Sample
import Authnz.Proofs.Challenge
import Authnz.Proofs.Walking
import Authnz.Proofs.Passwords
import Authnz.Proofs.PasswordReset
import Authnz.Proofs.PasswordChange
import Authnz.Proofs.Serving
import Authnz.Proofs.Rotation
import Authnz.Proofs.Tokens
import Authnz.Proofs.Presentation
import Authnz.Proofs.ChangeHandler
import Authnz.Proofs.Routes
import Authnz.Proofs.Origins
import Authnz.Proofs.Older
import Authnz.Proofs.Frames
import Authnz.Proofs.Keys
import Authnz.Proofs.Accounts
import Authnz.Proofs.Passkeys
import Authnz.Proofs.Ceremonies
import Authnz.Proofs.Logins
import Authnz.Proofs.Discretion
import Authnz.Proofs.Outages
import Authnz.Proofs.Indexes
import Authnz.Proofs.Isolation
import Authnz.Proofs.Taking
import Authnz.Proofs.Counters
import Authnz.Proofs.Lineage
import Authnz.Proofs.Announcing
import Authnz.Proofs.Cleartext
import Authnz.Proofs.Issuing
import Authnz.Proofs.Authenticity
import Authnz.Proofs.Sweeping
import Authnz.Proofs.Refreshing
import Authnz.Proofs.Enumeration
import Authnz.Proofs.Delivery
import Authnz.Proofs.Guesses
import Authnz.Proofs.Resets
import Authnz.Proofs.Copies
import Authnz.Proofs.Spelling
import Authnz.Proofs.Enrolments
import Authnz.Proofs.Exchanges
import Authnz.Proofs.Reuse
import Authnz.Proofs.Revocations
import Authnz.Proofs.Access
import Authnz.Proofs.Granting
import Authnz.Proofs.Outliving
import Authnz.Proofs.Policing
import Authnz.Proofs.EntitledRoutes
import Authnz.Proofs.Testimony
import Authnz.Proofs.Names
import Authnz.Proofs.Showing
import Authnz.Proofs.Progress
import Authnz.Proofs.Reckoning
import Authnz.Proofs.Answering
import Authnz.Proofs.Acknowledging
