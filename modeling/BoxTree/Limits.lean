/-!
# Limits

How deep and how large a tree can be. The index limit comes from the width of a link.
-/

namespace BoxTree

def maxDepth : Nat := 63

def batchWidth : Nat := 4

def maxLeafBatches : Nat := 15

def maxLeafTriangles : Nat := batchWidth * maxLeafBatches

/-- Largest index of a node or of a first batch. An index has 28 bits, and the next one stands for a
missing child. -/
def maxIndex : Nat := 0xfffffff - 1

def maxTriangles : Nat := maxIndex

end BoxTree
