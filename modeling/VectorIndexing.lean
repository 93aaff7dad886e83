import VectorIndexing.Proofs.Arrays.Composition
import VectorIndexing.Proofs.Arrays.Linear
import VectorIndexing.Proofs.Attributes.Rebuild
import VectorIndexing.Proofs.Bindings
import VectorIndexing.Proofs.Coercion.Reading
import VectorIndexing.Proofs.Handles.Independence
import VectorIndexing.Proofs.Levels
import VectorIndexing.Proofs.Overwriting.Again
import VectorIndexing.Proofs.Overwriting.Disjoint
import VectorIndexing.Proofs.Overwriting.OneByOne
import VectorIndexing.Proofs.Overwriting.Pointwise
import VectorIndexing.Proofs.Overwriting.Refusals
import VectorIndexing.Proofs.Picking
import VectorIndexing.Proofs.ReadBack.Names
import VectorIndexing.Proofs.Removal.Lists
import VectorIndexing.Proofs.WellFormed.Runs
import VectorIndexing.Proofs.WriteBack.Selection
import VectorIndexing.Proofs.Coercion.Positions
import VectorIndexing.Proofs.Indices
import VectorIndexing.Proofs.Attributes.SetGet
import VectorIndexing.Proofs.Names.Numbering
import VectorIndexing.Proofs.Names.Batches
import VectorIndexing.Proofs.Arrays.Odometer
import VectorIndexing.Proofs.Safety.Calls
