import Enrollment.Client
import Enrollment.Config.Document
import Enrollment.Exchange.Board
import Enrollment.Identity.Certificate
import Enrollment.Identity.Software
import Enrollment.Proofs.Reading
import Enrollment.Proofs.Trace
import Enrollment.Proofs.Session
import Enrollment.Proofs.KeyHandshake
import Enrollment.Proofs.Base64
import Enrollment.Proofs.KeyCourse
import Enrollment.Proofs.KeyDiscipline
import Enrollment.Proofs.CertificateHandshake
import Enrollment.Proofs.Registration
import Enrollment.Proofs.Poll
import Enrollment.Proofs.Attempt
import Enrollment.Proofs.AttemptResult
import Enrollment.Proofs.Notifications
import Enrollment.Proofs.AttemptCalls
import Enrollment.Proofs.AttemptTokens
import Enrollment.Proofs.Admission
import Enrollment.Proofs.Percent
import Enrollment.Proofs.TokenReader
import Enrollment.Proofs.TokenIdentity
import Enrollment.Proofs.Members
import Enrollment.Proofs.NonceReply
import Enrollment.Proofs.SoftwareHandshake
import Enrollment.Proofs.SoftwareRuns
import Enrollment.Proofs.Time
import Enrollment.Proofs.PollAccount
import Enrollment.Proofs.AttemptTime
import Enrollment.Proofs.ExchangeHistory
import Enrollment.Proofs.ExchangeIsolation
import Enrollment.Proofs.ExchangeResult
import Enrollment.Proofs.Meaning
import Enrollment.Proofs.ResponseShape
import Enrollment.Proofs.Presentation
import Enrollment.Proofs.ResponseReading
import Enrollment.Proofs.NonceReading
import Enrollment.Proofs.Lines
import Enrollment.Proofs.PemText
import Enrollment.Proofs.PemGrammar
import Enrollment.Proofs.CertificateIdentity
import Enrollment.Proofs.JsonGrammar
import Enrollment.Proofs.JsonPlaces
import Enrollment.Proofs.JsonText
import Enrollment.Proofs.JsonNumber
import Enrollment.Proofs.ErrorCode
import Enrollment.Proofs.DerivedId
import Enrollment.Proofs.RequestBody
import Enrollment.Proofs.TomlNumbers
import Enrollment.Proofs.TomlStrings
import Enrollment.Proofs.TomlMultiline
import Enrollment.Proofs.TomlKeys
import Enrollment.Proofs.TomlValues
import Enrollment.Proofs.TomlLines
import Enrollment.Proofs.TomlDocument
import Enrollment.Proofs.ConfigDocument
import Enrollment.Proofs.Coupling
import Enrollment.Proofs.Surroundings
import Enrollment.Proofs.Confinement
import Enrollment.Proofs.History
