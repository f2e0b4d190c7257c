import BoxTree.CommandLine
import BoxTree.Main
import BoxTree.Proofs.Build.Grown
import BoxTree.Proofs.Build.Parallel
import BoxTree.Proofs.Build.Sorting
import BoxTree.Proofs.Tree.AnyHit
import BoxTree.Proofs.Tree.Build
import BoxTree.Proofs.Tree.Pruning
import BoxTree.Proofs.Tree.Query
import BoxTree.Proofs.Tree.Widening
import BoxTree.Proofs.Build.ExactShape
import BoxTree.Proofs.Build.BinnedShape
import BoxTree.Proofs.Tree.Grown
import BoxTree.Proofs.Tree.Tally
import BoxTree.Proofs.Tree.Tight
import BoxTree.Proofs.Tree.Layout
import BoxTree.Proofs.Scalar.Sums
import BoxTree.Proofs.Scalar.Quotients
import BoxTree.Proofs.Ray
import BoxTree.Proofs.Slab.Nesting
import BoxTree.Proofs.Slab.Parallel
import BoxTree.Proofs.Triangle.Crossing
import BoxTree.Proofs.Build.Cuts
import BoxTree.Proofs.Build.Sweep
import BoxTree.Proofs.Scalar.Void
import BoxTree.Proofs.Scalar.Exact
import BoxTree.Proofs.Triangle.Degenerate
import BoxTree.Proofs.Scalar.Error
import BoxTree.Proofs.Triangle.Determinant
import BoxTree.Proofs.Build.Cheapest
import BoxTree.Proofs.Build.Planning
import BoxTree.Proofs.Build.Median
import BoxTree.Proofs.Splicing
import BoxTree.Proofs.Link.Code
import BoxTree.Proofs.Tree.Packing
import BoxTree.Proofs.Mesh.Sharing
import BoxTree.Proofs.Ray.Direction
import BoxTree.Proofs.Build.Halving
import BoxTree.Proofs.Build.Primitives
import BoxTree.Proofs.Slab.Inverted
import BoxTree.Proofs.Tree.Outline
import BoxTree.Proofs.Scalar.Widening
