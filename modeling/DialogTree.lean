import DialogTree.Files.Memory
import DialogTree.Main
import DialogTree.Proofs.Accounting
import DialogTree.Proofs.Canonical.Lossless
import DialogTree.Proofs.Canonical.Problems
import DialogTree.Proofs.Catalogs
import DialogTree.Proofs.Checking
import DialogTree.Proofs.Coercion.Trees
import DialogTree.Proofs.Decoding
import DialogTree.Proofs.Furthest
import DialogTree.Proofs.Json.Accepted
import DialogTree.Proofs.Json.Faults
import DialogTree.Proofs.Json.Tidying
import DialogTree.Proofs.Json.Trees
import DialogTree.Proofs.Leniency
import DialogTree.Proofs.Literals.Agreement
import DialogTree.Proofs.Naming.Readers
import DialogTree.Proofs.Places.Documents
import DialogTree.Proofs.Places.Nodes
import DialogTree.Proofs.Progress
import DialogTree.Proofs.Recovery.Agreement
import DialogTree.Proofs.Recovery.Bodies
import DialogTree.Proofs.Recovery.Locality
import DialogTree.Proofs.Registration
import DialogTree.Proofs.Reread.Documents
import DialogTree.Proofs.RoundTrip
import DialogTree.Proofs.Rules.Bounds
import DialogTree.Proofs.Rules.Integers
import DialogTree.Proofs.Tree.Attributes
import DialogTree.Proofs.Tree.Calls
import DialogTree.Proofs.Tree.DottedPaths
import DialogTree.Proofs.Violations
import DialogTree.Tree.Scope
