import TableCapture.Main
import TableCapture.Proofs.SchemaCache.SingleFlight
import TableCapture.Proofs.SchemaCache.Freshness
import TableCapture.Proofs.SchemaCache.Overlap
import TableCapture.Proofs.SchemaCache.Tended
import TableCapture.Proofs.SchemaCache.Provenance
import TableCapture.Proofs.SchemaCache.Independence
import TableCapture.Proofs.SchemaCache.CrowdOutcome
import TableCapture.Proofs.SchemaCache.Expiry
import TableCapture.Proofs.Options.Outcome
import TableCapture.Proofs.Options.Accounting
import TableCapture.Proofs.Source.Secrecy
import TableCapture.Proofs.Sql.Nullability
import TableCapture.Proofs.Sql.Listing
import TableCapture.Proofs.Sql.Closing
import TableCapture.Proofs.Sql.Transparency
import TableCapture.Proofs.Sql.Substitution
import TableCapture.Proofs.Source.Equality
import TableCapture.Proofs.Options.Restating
import TableCapture.Proofs.Options.Engine
import TableCapture.Proofs.Options.Integers
import TableCapture.Proofs.Source.Reordering
import TableCapture.Proofs.Resolution.Stages
import TableCapture.Proofs.Resolution.Qualification
import TableCapture.Proofs.Resolution.Quoting
