import ApiScaffold.Bundle
import ApiScaffold.Calendar.Iso
import ApiScaffold.Report.Logging
import ApiScaffold.Shape.Artifact
import ApiScaffold.Source.File
import ApiScaffold.Source.Parse
import ApiScaffold.Proofs.Bundle.Inventory
import ApiScaffold.Proofs.Bundle.Linking
import ApiScaffold.Proofs.Bundle.Names
import ApiScaffold.Proofs.Bundle.Numbers
import ApiScaffold.Proofs.Bundle.Refusal
import ApiScaffold.Proofs.Bundle.Share
import ApiScaffold.Proofs.Bundle.Totality
import ApiScaffold.Proofs.Check.Counts
import ApiScaffold.Proofs.Check.Identifiers
import ApiScaffold.Proofs.Check.Order
import ApiScaffold.Proofs.Check.SingleFault
import ApiScaffold.Proofs.Check.Warnings
import ApiScaffold.Proofs.Endpoint.Mandatory
import ApiScaffold.Proofs.Imports.Merging
import ApiScaffold.Proofs.Migration.CaseFolding
import ApiScaffold.Proofs.Migration.SeedColumns
import ApiScaffold.Proofs.Migration.TokenOrder
import ApiScaffold.Proofs.Naming.Letters
import ApiScaffold.Proofs.Naming.Usable
import ApiScaffold.Proofs.OpenApi.ListQuery
import ApiScaffold.Proofs.Relations.History
import ApiScaffold.Proofs.Schema.Bounds
import ApiScaffold.Proofs.Schema.ImportClosed
import ApiScaffold.Proofs.Session
import ApiScaffold.Proofs.Source.Parse
