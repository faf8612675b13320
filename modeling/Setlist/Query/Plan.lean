import Setlist.Query.Selection

/-! # Plans

A query that the database has read is run by a plan: the rows and conditions are visited in an
order of the database's choice, and no further than the answer needs. The plan decides whether
the query comes upon a pattern that is too long to be matched, which ends it without an answer.
Nothing is known of a plan but what holds of all of them.
-/

namespace Setlist

namespace Selection

/-- The fields that the query mentions. -/
def fields (s : Selection) : List Field :=
  s.order.field :: s.groups.flatMap (·.flatMap (·.fields))

/-- What the query reads of a row. -/
def sight (s : Selection) (row : Row) : SongRow × List Cell := (row.song, s.fields.map row.cell)

/-- The query reads the same rows in both catalogues. -/
structure SeesAlike (s : Selection) (c d : Catalogue) : Prop where
  artists : c.artists = d.artists
  albums : c.albums = d.albums
  songs : c.songs = d.songs
  rows : (c.joined s.joins s.user).map s.sight = (d.joined s.joins s.user).map s.sight

/-- Some pattern of the query is too long to be matched. -/
def HasOverlong (s : Selection) : Prop :=
  ∃ group ∈ s.groups, ∃ condition ∈ group, ∃ read, condition.fails read = true

end Selection

/-- Whether a query comes upon a pattern that is too long when it counts, or lists a page. -/
structure Plan where
  meets : Selection → Option PageRequest → Catalogue → Bool
  /-- Only such a pattern is met. -/
  overlong {s : Selection} {page : Option PageRequest} {c : Catalogue} :
    meets s page c = true → s.HasOverlong
  /-- What a query does not read does not matter to it. -/
  alike {s : Selection} {page : Option PageRequest} {c d : Catalogue} :
    s.SeesAlike c d → meets s page c = meets s page d
  /-- To count by a single condition is to test it on every row. -/
  tested {s : Selection} {condition : Condition} {c : Catalogue} {row : Row} :
    s.groups = [[condition]] → row ∈ c.joined s.joins s.user →
      condition.fails row.cell = true → meets s none c = true

/-- Why the selection cannot be counted, or its page listed: the query is read before it is
run. -/
def Selection.fault? (s : Selection) (plan : Plan) (page : Option PageRequest) (c : Catalogue) :
    Option DatabaseFault :=
  match s.read page with
  | .error fault => some fault
  | .ok _ => if plan.meets s page c then some .patternTooLong else none

end Setlist
