import Setlist.Catalogue.Songs
import Setlist.Query.Plan

/-! # Evaluating a playlist

The songs that match an expression are counted, ordered, and handed out by the page. The
order may need a relation that the expression itself does not.
-/

namespace Setlist

namespace Catalogue

/-- The selection that counts the matches of an expression. -/
def counting (e : Expression) (order : SortOrder) (now : Instant) : Selection :=
  .ofExpression e e.joins order now

/-- The selection that lists the matches of an expression in order. -/
def listing (e : Expression) (order : SortOrder) (now : Instant) : Selection :=
  .ofExpression e (e.joins.union (.ofOption order.field.relation)) order now

/-- A page of the songs that match, which are counted before they are listed. An expression
that matches nothing is not run. -/
def evaluate (c : Catalogue) (plan : Plan) (e : Expression) (order : SortOrder)
    (page : PageRequest) (now : Instant) : Except CatalogueError SongPage :=
  if e.matchesNothing then .ok (.empty page.page page.perPage)
  else
    let counted := counting e order now
    let listed := listing e order now
    match (counted.fault? plan none c).or (listed.fault? plan (some page) c) with
    | some fault => .error (.database fault)
    | none =>
      let ids := ((listed.ids c).drop page.offset).take page.limit
      (Songs.many c e.user ids).map fun songs => ⟨songs, counted.count c, page.page, page.perPage⟩

end Catalogue

end Setlist
