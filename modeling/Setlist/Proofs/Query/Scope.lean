import Setlist.Catalogue.Evaluate
import Setlist.Proofs.Query.Meaning
import Setlist.Proofs.Query.Rendering
import Setlist.Proofs.Rule.Batches

/-! # Every name of a query is in scope

Which relations are joined is collected when rules are compiled, and the names that are read are
put into the text when it is rendered. The two agree: a query introduces each alias that it
mentions, and it joins no relation that neither a predicate nor the order reads.
-/

namespace Setlist

namespace Token

/-- What stands before the dot of a name. -/
def qualifier? : Token → Option String
  | .name word =>
    if '.' ∈ word.toList then some (String.ofList (word.toList.takeWhile (· != '.'))) else none
  | _ => none

/-- A table and its alias come next. -/
def Introduces (token : Token) : Prop := token = .name "FROM" ∨ token = .name "JOIN"

instance (token : Token) : Decidable token.Introduces := inferInstanceAs (Decidable (_ ∨ _))

/-- The tables that tokens introduce, each with its alias. -/
def introduced : List Token → List (String × String)
  | [] => []
  | token :: rest =>
    match rest with
    | .name table :: .name qualifier :: _ =>
      if token.Introduces then (table, qualifier) :: introduced rest else introduced rest
    | _ => introduced rest

def qualifiers (tokens : List Token) : List String := tokens.filterMap qualifier?

theorem introduced_cons {token : Token} (h : ¬token.Introduces) (rest : List Token) :
    introduced (token :: rest) = introduced rest := by
  conv_lhs => unfold introduced
  split
  case h_1 => exact if_neg h
  case h_2 => rfl

theorem introduced_table {token : Token} (h : token.Introduces) (table qualifier : String)
    (rest : List Token) : introduced (token :: .name table :: .name qualifier :: rest) =
      (table, qualifier) :: introduced (.name table :: .name qualifier :: rest) :=
  if_pos h

theorem introduced_append {before : List Token} (h : ∀ token ∈ before, ¬token.Introduces)
    (rest : List Token) : introduced (before ++ rest) = introduced rest := by
  induction before with
  | nil => rfl
  | cons token before ih =>
    obtain ⟨hfirst, hbefore⟩ := List.forall_mem_cons.mp h
    rw [List.cons_append, introduced_cons hfirst, ih hbefore]

theorem introduced_eq_nil {tokens : List Token} (h : ∀ token ∈ tokens, ¬token.Introduces) :
    introduced tokens = [] := by
  simpa [introduced] using introduced_append h []

theorem Introduces.exists_word {token : Token} (h : token.Introduces) :
    ∃ word, token = .name word ∧ word ≠ "date" := by
  rcases h with rfl | rfl <;> exact ⟨_, rfl, by decide⟩

@[simp] theorem qualifiers_nil : qualifiers [] = [] := rfl

@[simp] theorem qualifiers_cons (token : Token) (rest : List Token) :
    qualifiers (token :: rest) = token.qualifier?.toList ++ qualifiers rest := by
  rw [qualifiers, List.filterMap_cons]
  cases token.qualifier? <;> rfl

@[simp] theorem qualifiers_append (tokens more : List Token) :
    qualifiers (tokens ++ more) = qualifiers tokens ++ qualifiers more :=
  List.filterMap_append

@[simp] theorem qualifiers_flatMap {α : Type} (items : List α) (tokens : α → List Token) :
    qualifiers (items.flatMap tokens) = items.flatMap fun item => qualifiers (tokens item) :=
  List.filterMap_flatMap

end Token

open Token

namespace Relation

def table : Relation → String
  | album => "albums"
  | artist => "artists"
  | interaction => "interactions"

def qualifier : Relation → String
  | album => "al"
  | artist => "ar"
  | interaction => "i"

def source (relation : Relation) : String × String := (relation.table, relation.qualifier)

def tokens (user : Int) : Relation → List Token
  | album => [.name "INNER", .name "JOIN", .name "albums", .name "al", .name "ON", .name "al.id",
      .sign .equal, .name "s.album_id"]
  | artist => [.name "INNER", .name "JOIN", .name "artists", .name "ar", .name "ON",
      .name "ar.id", .sign .equal, .name "s.artist_id"]
  | interaction => [.name "LEFT", .name "JOIN", .name "interactions", .name "i", .name "ON",
      .name "i.song_id", .sign .equal, .name "s.id", .and, .name "i.user_id", .sign .equal,
      .datum (some (.integer user))]

theorem tokens_joinSql (user : Int) (relation : Relation) :
    (Selection.joinSql user relation).tokens = relation.tokens user := by
  cases relation with
  | album | artist => simp only [Selection.joinSql, tokens]; decide +kernel
  | interaction =>
    rw [Selection.joinSql, Sql.tokens_bind]
    exact congrArg (· ++ _) (by decide +kernel : Sql.wordTokens _ =
      [.name "LEFT", .name "JOIN", .name "interactions", .name "i", .name "ON",
        .name "i.song_id", .sign .equal, .name "s.id", .and, .name "i.user_id", .sign .equal])

theorem introduced_tokens (user : Int) (relation : Relation) (rest : List Token) :
    introduced (relation.tokens user ++ rest) = relation.source :: introduced rest := by
  have hjoin : Introduces (.name "JOIN") := .inr rfl
  cases relation <;>
    simp [tokens, introduced_cons, introduced_table hjoin, Introduces, source, table, qualifier]

theorem mem_qualifiers_tokens {user : Int} {relation : Relation} {qualifier : String}
    (h : qualifier ∈ qualifiers (relation.tokens user)) :
    qualifier = "s" ∨ qualifier = relation.qualifier := by
  revert h
  cases relation <;> simp +contextual [tokens, qualifier?, Relation.qualifier, or_imp]

end Relation

namespace Field

/-- The alias of the relation that the field is read from. -/
def qualifier (field : Field) : String := (field.relation.map Relation.qualifier).getD "s"

theorem qualifiers_tokens (field : Field) : qualifiers field.tokens = [field.qualifier] := by
  cases field <;> decide +kernel

theorem not_mem_tokens {token : Token} (h : token.Introduces) (field : Field) :
    token ∉ field.tokens := by
  rcases h with rfl | rfl <;> cases field <;> decide +kernel

theorem qualifier_eq_iff {field : Field} {relation : Relation} :
    field.qualifier = relation.qualifier ↔ field.relation = some relation := by
  cases field <;> cases relation <;> decide

theorem qualifier_cases (field : Field) : field.qualifier = "s" ∨
    ∃ relation, field.relation = some relation ∧ field.qualifier = relation.qualifier := by
  cases hrelation : field.relation with
  | none => exact .inl (by rw [qualifier, hrelation]; rfl)
  | some relation => exact .inr ⟨relation, rfl, qualifier_eq_iff.mpr hrelation⟩

end Field

namespace Condition

theorem qualifiers_tokens (condition : Condition) :
    qualifiers condition.tokens = condition.fields.map Field.qualifier := by
  induction condition with
  | negation condition ih => simp [tokens, enclosed, fields, qualifier?, ih]
  | absentOr field condition ih =>
    simp [tokens, enclosed, fields, qualifier?, Field.qualifiers_tokens, ih]
  | _ => simp [tokens, enclosed, fields, qualifier?, Field.qualifiers_tokens]

theorem not_mem_tokens {token : Token} (h : token.Introduces) (condition : Condition) :
    token ∉ condition.tokens := by
  have hfield := Field.not_mem_tokens h
  obtain ⟨word, rfl, hdate⟩ := h.exists_word
  induction condition with
  | negation condition ih => simp [tokens, enclosed, ih]
  | absentOr field condition ih => simp [tokens, enclosed, hfield, ih]
  | _ => simp [tokens, enclosed, hfield, hdate]

theorem IsLive.fields_ne_nil {condition : Condition} (h : condition.IsLive) :
    condition.fields ≠ [] := by
  induction condition with
  | never => cases h
  | negation condition ih => exact ih h
  | _ => exact List.cons_ne_nil _ _

end Condition

theorem Predicate.Typed.mem_fields {p : Predicate} (h : p.Typed) {now : Instant} {field : Field} :
    field ∈ (p.condition now).fields ↔ field = p.field := by
  refine ⟨p.eq_of_mem_fields now field, ?_⟩
  rintro rfl
  obtain ⟨field, hfield⟩ := List.exists_mem_of_ne_nil _ (h.isLive now).fields_ne_nil
  rwa [← p.eq_of_mem_fields now field hfield]

namespace Selection

variable (s : Selection)

theorem not_mem_groupTokens {token : Token} (h : token.Introduces) (group : List Condition) :
    token ∉ groupTokens group := by
  have hconditions := Condition.not_mem_tokens h
  obtain ⟨word, rfl, -⟩ := h.exists_word
  cases group <;> simp [groupTokens, enclosed, hconditions]

theorem not_mem_tokens {token : Token} (h : token.Introduces) : token ∉ s.tokens := by
  have hgroups := not_mem_groupTokens h
  obtain ⟨word, rfl, -⟩ := h.exists_word
  unfold tokens
  cases s.groups <;> simp [hgroups]

theorem qualifiers_groupTokens (group : List Condition) : qualifiers (groupTokens group) =
    (group.flatMap (·.fields)).map Field.qualifier := by
  cases group with
  | nil => rfl
  | cons first rest =>
    simp [groupTokens, enclosed, qualifier?, Condition.qualifiers_tokens, List.map_flatMap]

theorem qualifiers_tokens : qualifiers s.tokens =
    (s.groups.flatMap (·.flatMap (·.fields))).map Field.qualifier := by
  unfold tokens
  cases s.groups with
  | nil => rfl
  | cons first rest => simp [qualifier?, qualifiers_groupTokens, List.map_flatMap]

def countSql : Sql := .text "SELECT COUNT(*)" :: (s.fromSql ++ s.whereSql)

def fromTokens : List Token :=
  [.name "FROM", .name "songs", .name "s"] ++ s.joins.toList.flatMap (Relation.tokens s.user)

def whereTokens : List Token := .name "WHERE" :: s.tokens

def orderTokens : List Token :=
  [.name "ORDER", .name "BY"] ++ s.order.field.tokens ++
    [.name s.order.direction.keyword, .comma, .name "s.id", .name "ASC"]

theorem starts_joinSql (user : Int) (relation : Relation) :
    Token.Starts (Sql.characters (joinSql user relation)) := by
  cases relation <;> exact .inl rfl

theorem tokens_joins (user : Int) (relations : List Relation) (before : Sql) :
    (before ++ relations.flatMap (joinSql user)).tokens =
      before.tokens ++ relations.flatMap (Relation.tokens user) := by
  induction relations generalizing before with
  | nil => simp
  | cons relation rest ih =>
    rw [List.flatMap_cons, ← List.append_assoc, ih, Sql.tokens_append (starts_joinSql _ _),
      Relation.tokens_joinSql, List.append_assoc, List.flatMap_cons]

theorem tokens_fromSql : s.fromSql.tokens = s.fromTokens := by
  have hsongs : Sql.tokens [.text " FROM songs s"] =
      [.name "FROM", .name "songs", .name "s"] := by decide +kernel
  rw [fromSql, ← List.singleton_append, tokens_joins, hsongs]
  rfl

theorem tokens_orderSql : s.orderSql.tokens = s.orderTokens := by
  have hends : Token.Ends (" ORDER BY ".toList.map .inl) :=
    ⟨" ORDER BY".toList.map .inl, ' ', rfl, .inl rfl⟩
  have hby : Sql.wordTokens " ORDER BY " = [.name "ORDER", .name "BY"] := by decide +kernel
  have hid : ∀ direction : Direction, Sql.wordTokens (" " ++ direction.keyword ++ ", s.id ASC") =
      [.name direction.keyword, .comma, .name "s.id", .name "ASC"] := by
    intro direction
    cases direction <;> decide +kernel
  have hstarts : ∀ direction : Direction,
      Token.Starts ((" " ++ direction.keyword ++ ", s.id ASC").toList.map .inl) := by
    intro direction
    cases direction <;> exact .inl rfl
  have hwords : s.orderSql.tokens = Sql.wordTokens (" ORDER BY " ++
      (s.order.field.column ++ (" " ++ s.order.direction.keyword ++ ", s.id ASC"))) := by
    simp [orderSql, Sql.tokens, Sql.characters, Sql.wordTokens, String.append_assoc]
  rw [hwords, Sql.wordTokens_append_of_ends hends, hby,
    s.order.field.wordTokens_append (hid _) (hstarts _), ← List.append_assoc]
  rfl

theorem starts_fromSql : Token.Starts (Sql.characters s.fromSql) := .inl rfl

theorem starts_whereSql : Token.Starts (Sql.characters s.whereSql) := .inl rfl

theorem starts_orderSql : Token.Starts (Sql.characters s.orderSql) := by
  simp [orderSql, Sql.characters, Token.Starts, Token.Parts]

theorem tokens_clauses : (s.whereSql ++ s.orderSql).tokens = s.whereTokens ++ s.orderTokens := by
  rw [Sql.tokens_append s.starts_orderSql, tokens_whereSql, tokens_orderSql]
  rfl

theorem tokens_sql : s.sql.tokens = [.name "SELECT", .name "s.id"] ++ s.fromTokens ++
    (s.whereTokens ++ s.orderTokens) := by
  have hselect : Sql.tokens [.text "SELECT s.id"] = [.name "SELECT", .name "s.id"] := by
    decide +kernel
  rw [sql, ← List.singleton_append, ← List.append_assoc, ← List.append_assoc,
    Sql.tokens_append s.starts_orderSql, Sql.tokens_append s.starts_whereSql,
    Sql.tokens_append s.starts_fromSql, hselect, tokens_fromSql, tokens_whereSql, tokens_orderSql,
    List.append_assoc _ _ s.orderTokens]
  rfl

theorem tokens_countSql : s.countSql.tokens =
    [.name "SELECT", .name "COUNT", .opening, .name "*", .closing] ++ s.fromTokens ++
      s.whereTokens := by
  have hselect : Sql.tokens [.text "SELECT COUNT(*)"] =
      [.name "SELECT", .name "COUNT", .opening, .name "*", .closing] := by decide +kernel
  rw [countSql, ← List.singleton_append, ← List.append_assoc,
    Sql.tokens_append s.starts_whereSql, Sql.tokens_append s.starts_fromSql, hselect,
    tokens_fromSql, tokens_whereSql]
  rfl

theorem introduced_joins (user : Int) (relations : List Relation) (after : List Token) :
    introduced (relations.flatMap (Relation.tokens user) ++ after) =
      relations.map Relation.source ++ introduced after := by
  induction relations with
  | nil => rfl
  | cons relation rest ih =>
    rw [List.flatMap_cons, List.append_assoc, Relation.introduced_tokens, ih, List.map_cons,
      List.cons_append]

theorem introduced_fromTokens {before after : List Token}
    (hbefore : ∀ token ∈ before, ¬token.Introduces)
    (hafter : ∀ token ∈ after, ¬token.Introduces) :
    introduced (before ++ s.fromTokens ++ after) =
      ("songs", "s") :: s.joins.toList.map Relation.source := by
  have hfrom : Introduces (.name "FROM") := .inl rfl
  have hsongs : ¬Introduces (.name "songs") ∧ ¬Introduces (.name "s") := by decide
  rw [List.append_assoc, introduced_append hbefore, fromTokens, List.append_assoc]
  simp only [List.cons_append, List.nil_append]
  rw [introduced_table hfrom, introduced_cons hsongs.1, introduced_cons hsongs.2,
    introduced_joins, introduced_eq_nil hafter, List.append_nil]

theorem mem_qualifiers_fromTokens {qualifier : String} (h : qualifier ∈ qualifiers s.fromTokens) :
    qualifier = "s" ∨ ∃ relation ∈ s.joins.toList, qualifier = relation.qualifier := by
  have hsongs : qualifiers [.name "FROM", .name "songs", .name "s"] = [] := by decide +kernel
  rw [fromTokens, qualifiers_append, hsongs, List.nil_append, qualifiers_flatMap] at h
  obtain ⟨relation, hmem, hown⟩ := List.mem_flatMap.mp h
  exact (Relation.mem_qualifiers_tokens hown).imp_right fun hown => ⟨relation, hmem, hown⟩

end Selection

/-- The query joins the relations that are needed, once each and in one order. Every name that it
mentions belongs to just one of its tables, and its clauses mention all that is joined. -/
structure Sql.Scoped (query clauses : Sql) (Needs : Relation → Prop) : Prop where
  within : clauses.tokens <:+ query.tokens
  tables : (introduced query.tokens).Sublist
    (("songs", "s") :: [Relation.album, .artist, .interaction].map Relation.source)
  resolved : ∀ qualifier ∈ qualifiers query.tokens,
    ((introduced query.tokens).map Prod.snd).count qualifier = 1
  joined : ∀ relation : Relation, relation.source ∈ introduced query.tokens ↔ Needs relation
  mentioned : ∀ relation : Relation,
    relation.qualifier ∈ qualifiers clauses.tokens ↔ Needs relation

theorem Joins.mem_toList {joins : Joins} {relation : Relation} :
    relation ∈ joins.toList ↔ joins.has relation = true := by
  rw [toList, List.mem_filter]
  exact and_iff_right (by cases relation <;> decide)

namespace Relation

theorem source_ne (relation : Relation) : relation.source ≠ ("songs", "s") := by
  cases relation <;> decide

theorem qualifier_ne (relation : Relation) : relation.qualifier ≠ "s" := by
  cases relation <;> decide

theorem qualifier_injective : Function.Injective qualifier := by
  intro a b
  cases a <;> cases b <;> decide

theorem source_injective : Function.Injective source :=
  fun _ _ h => qualifier_injective (congrArg Prod.snd h)

end Relation

/-- A query is scoped when its clauses read what is joined, and nothing else but the songs. -/
theorem Selection.scoped {s : Selection} {query clauses : Sql} {before after : List Token}
    {Needs : Relation → Prop} (hquery : query.tokens = before ++ s.fromTokens ++ after)
    (hclauses : clauses.tokens = after) (hbefore : ∀ token ∈ before, ¬token.Introduces)
    (hsongs : ∀ qualifier ∈ qualifiers before, qualifier = "s")
    (hafter : ∀ token ∈ after, ¬token.Introduces)
    (hread : ∀ qualifier ∈ qualifiers after,
      qualifier = "s" ∨ ∃ relation : Relation, Needs relation ∧ qualifier = relation.qualifier)
    (hneeds : ∀ relation, Needs relation → relation.qualifier ∈ qualifiers after)
    (hjoins : ∀ relation, s.joins.has relation = true ↔ Needs relation) :
    query.Scoped clauses Needs := by
  have hjoined : ∀ relation, relation ∈ s.joins.toList ↔ Needs relation :=
    fun relation => Joins.mem_toList.trans (hjoins relation)
  have htables : introduced query.tokens = ("songs", "s") :: s.joins.toList.map Relation.source :=
    (congrArg introduced hquery).trans (s.introduced_fromTokens hbefore hafter)
  have hsublist : (introduced query.tokens).Sublist
      (("songs", "s") :: [Relation.album, .artist, .interaction].map Relation.source) := by
    rw [htables]
    exact (List.filter_sublist.map _).cons_cons _
  have hqualifiers : ∀ qualifier ∈ qualifiers query.tokens, qualifier = "s" ∨
      ∃ relation : Relation, Needs relation ∧ qualifier = relation.qualifier := by
    intro qualifier h
    rw [hquery, qualifiers_append, qualifiers_append, List.mem_append, List.mem_append] at h
    rcases h with (hfirst | hfrom) | hlast
    · exact .inl (hsongs qualifier hfirst)
    · exact (s.mem_qualifiers_fromTokens hfrom).imp_right fun ⟨relation, hmem, hown⟩ =>
        ⟨relation, (hjoined relation).mp hmem, hown⟩
    · exact hread qualifier hlast
  constructor
  case within => exact ⟨before ++ s.fromTokens, by rw [hclauses, hquery]⟩
  case tables => exact hsublist
  case resolved =>
    intro qualifier h
    have hnodup : ((("songs", "s") :: [Relation.album, .artist, .interaction].map
        Relation.source).map Prod.snd).Nodup := by decide
    refine List.count_eq_one_of_mem ((hsublist.map _).nodup hnodup) ?_
    rw [htables, List.map_cons, List.map_map]
    rcases hqualifiers qualifier h with rfl | ⟨relation, hneeded, rfl⟩
    · exact List.mem_cons_self
    · exact List.mem_cons_of_mem _ (List.mem_map_of_mem ((hjoined relation).mpr hneeded))
  case joined =>
    intro relation
    rw [htables, List.mem_cons, or_iff_right relation.source_ne,
      List.mem_map_of_injective Relation.source_injective]
    exact hjoined relation
  case mentioned =>
    intro relation
    rw [hclauses]
    refine ⟨fun h => ?_, hneeds relation⟩
    obtain ⟨other, hother, hsame⟩ := (hread _ h).resolve_left relation.qualifier_ne
    rwa [Relation.qualifier_injective hsame]

namespace Selection

variable (s : Selection)

theorem not_introduces_whereTokens : ∀ token ∈ s.whereTokens, ¬token.Introduces :=
  List.forall_mem_cons.mpr ⟨by decide, fun _ htoken h => s.not_mem_tokens h htoken⟩

theorem not_introduces_orderTokens : ∀ token ∈ s.orderTokens, ¬token.Introduces := by
  have hends : ∀ direction : Direction, ∀ token ∈ [.name direction.keyword, .comma, .name "s.id",
      .name "ASC"], ¬Introduces token := by
    intro direction
    cases direction <;> decide
  have hkeywords : ∀ token ∈ [.name "ORDER", .name "BY"], ¬Introduces token := by decide
  intro token htoken
  rw [orderTokens, List.mem_append, List.mem_append] at htoken
  rcases htoken with (hfirst | hfield) | hlast
  · exact hkeywords token hfirst
  · exact fun h => Field.not_mem_tokens h _ hfield
  · exact hends _ token hlast

theorem qualifiers_whereTokens : qualifiers s.whereTokens = qualifiers s.tokens := by
  simp [whereTokens, qualifier?]

theorem mem_qualifiers_orderTokens {qualifier : String} : qualifier ∈ qualifiers s.orderTokens ↔
    qualifier = s.order.field.qualifier ∨ qualifier = "s" := by
  have hends : ∀ direction : Direction,
      qualifiers [.name direction.keyword, .comma, .name "s.id", .name "ASC"] = ["s"] := by
    intro direction
    cases direction <;> decide +kernel
  have hkeywords : qualifiers [.name "ORDER", .name "BY"] = [] := by decide +kernel
  rw [orderTokens, qualifiers_append, qualifiers_append, hkeywords, hends,
    Field.qualifiers_tokens]
  simp

end Selection

def Expression.Needs (e : Expression) (relation : Relation) : Prop :=
  ∃ p ∈ e.groups.flatten, p.field.relation = some relation

section Compiled

open Catalogue

variable {user : Int} {groups : List GroupRecord} {e : Expression}

theorem Expression.mem_qualifiers (htyped : ∀ p ∈ e.groups.flatten, p.Typed) (joins : Joins)
    (order : SortOrder) (now : Instant) {qualifier : String} :
    qualifier ∈ qualifiers (Selection.ofExpression e joins order now).whereTokens ↔
      ∃ p ∈ e.groups.flatten, qualifier = p.field.qualifier := by
  rw [Selection.qualifiers_whereTokens, Selection.qualifiers_tokens, List.mem_map]
  constructor
  · rintro ⟨field, hfield, rfl⟩
    obtain ⟨_, hgroup, hfield⟩ := List.mem_flatMap.mp hfield
    obtain ⟨group, hmem, rfl⟩ := List.mem_map.mp hgroup
    obtain ⟨_, hcondition, hfield⟩ := List.mem_flatMap.mp hfield
    obtain ⟨p, hp, rfl⟩ := List.mem_map.mp hcondition
    have hown := p.eq_of_mem_fields now field hfield
    exact ⟨p, List.mem_flatten_of_mem hmem hp, by rw [hown]⟩
  · rintro ⟨p, hp, rfl⟩
    have hfield : p.field ∈ (p.condition now).fields := (htyped p hp).mem_fields.mpr rfl
    obtain ⟨group, hmem, hgroup⟩ := List.mem_flatten.mp hp
    exact ⟨p.field, List.mem_flatMap.mpr ⟨_, List.mem_map_of_mem hmem,
      List.mem_flatMap.mpr ⟨_, List.mem_map_of_mem hgroup, hfield⟩⟩, rfl⟩

theorem Expression.cases_of_mem_qualifiers (htyped : ∀ p ∈ e.groups.flatten, p.Typed)
    {joins : Joins} {order : SortOrder} {now : Instant} {qualifier : String}
    (h : qualifier ∈ qualifiers (Selection.ofExpression e joins order now).whereTokens) :
    qualifier = "s" ∨ ∃ relation : Relation, e.Needs relation ∧ qualifier = relation.qualifier := by
  obtain ⟨p, hp, rfl⟩ := (mem_qualifiers htyped joins order now).mp h
  exact p.field.qualifier_cases.imp_right fun ⟨relation, hrelation, hsame⟩ =>
    ⟨relation, ⟨p, hp, hrelation⟩, hsame⟩

theorem Expression.Needs.mem_qualifiers (htyped : ∀ p ∈ e.groups.flatten, p.Typed)
    {relation : Relation} (h : e.Needs relation) (joins : Joins) (order : SortOrder)
    (now : Instant) : relation.qualifier ∈
      qualifiers (Selection.ofExpression e joins order now).whereTokens := by
  obtain ⟨p, hp, hrelation⟩ := h
  refine (Expression.mem_qualifiers htyped joins order now).mpr ⟨p, hp, ?_⟩
  exact (Field.qualifier_eq_iff.mpr hrelation).symm

theorem GroupRecord.has_joins_of_compileStrict (h : compileStrict user groups = .ok e)
    (relation : Relation) : e.joins.has relation = true ↔ e.Needs relation := by
  obtain ⟨-, rfl⟩ := compileStrict_eq_ok.mp h
  refine ((batch_compile user groups).joins relation).trans ?_
  constructor
  · rintro ⟨ps, hps, p, hp, hrelation⟩
    exact ⟨p, List.mem_flatten_of_mem hps hp, hrelation⟩
  · rintro ⟨p, hp, hrelation⟩
    obtain ⟨ps, hps, hp⟩ := List.mem_flatten.mp hp
    exact ⟨ps, hps, p, hp, hrelation⟩

/-- Both queries of an expression that was compiled are scoped: the one for the count needs what
the predicates read, and the one for the ids also what the order reads. -/
theorem GroupRecord.compiled_queries_scoped (h : compileStrict user groups = .ok e)
    (order : SortOrder) (now : Instant) :
    (listing e order now).sql.Scoped ((listing e order now).whereSql ++
      (listing e order now).orderSql)
      (fun relation => e.Needs relation ∨ order.field.relation = some relation) ∧
    (counting e order now).countSql.Scoped (counting e order now).whereSql e.Needs := by
  have htyped : ∀ p ∈ e.groups.flatten, p.Typed := by
    obtain ⟨-, rfl⟩ := compileStrict_eq_ok.mp h
    exact fun _ => typed_of_mem_compile
  have hjoins := has_joins_of_compileStrict h
  constructor
  · refine Selection.scoped (listing e order now).tokens_sql (listing e order now).tokens_clauses
      (by decide) (by decide +kernel) ?_ ?_ ?_ ?_
    · exact List.forall_mem_append.mpr ⟨Selection.not_introduces_whereTokens _,
        Selection.not_introduces_orderTokens _⟩
    · intro qualifier hqualifier
      rw [qualifiers_append, List.mem_append, Selection.mem_qualifiers_orderTokens] at hqualifier
      rcases hqualifier with hclause | rfl | hid
      · exact (Expression.cases_of_mem_qualifiers htyped hclause).imp_right
          fun ⟨relation, hneeds, hsame⟩ => ⟨relation, .inl hneeds, hsame⟩
      · exact order.field.qualifier_cases.imp_right fun ⟨relation, hrelation, hsame⟩ =>
          ⟨relation, .inr hrelation, hsame⟩
      · exact .inl hid
    · intro relation hneeded
      rw [qualifiers_append, List.mem_append, Selection.mem_qualifiers_orderTokens]
      rcases hneeded with hneeds | horder
      · exact .inl (hneeds.mem_qualifiers htyped _ order now)
      · exact .inr (.inl (Field.qualifier_eq_iff.mpr horder).symm)
    · intro relation
      change (e.joins.union (.ofOption order.field.relation)).has relation = true ↔ _
      rw [Joins.has_union, hjoins, Joins.has_ofOption]
  · exact Selection.scoped (counting e order now).tokens_countSql
      (counting e order now).tokens_whereSql (by decide) (by decide +kernel)
      (Selection.not_introduces_whereTokens _)
      (fun _ => Expression.cases_of_mem_qualifiers htyped)
      (fun _ hneeds => hneeds.mem_qualifiers htyped e.joins order now) hjoins

end Compiled

namespace GroupRecord

open Catalogue

def onAlbumB : GroupRecord := ⟨none, [⟨none, .named "album.name", "is", [.string "B"]⟩]⟩

/-- Ordered by plays, the ids are read with the interactions too, and the count without. -/
theorem compiled_queries_scoped_byPlays : ∃ e, compileStrict 1 [onAlbumB] = .ok e ∧
    (∀ qualifier ∈ qualifiers (listing e ⟨.playCount, .descending⟩ ⟨0, 0⟩).sql.tokens,
      ((introduced (listing e ⟨.playCount, .descending⟩ ⟨0, 0⟩).sql.tokens).map
        Prod.snd).count qualifier = 1) ∧
    ("interactions", "i") ∈ introduced (listing e ⟨.playCount, .descending⟩ ⟨0, 0⟩).sql.tokens ∧
    ("interactions", "i") ∉
      introduced (counting e ⟨.playCount, .descending⟩ ⟨0, 0⟩).countSql.tokens := by
  have hcompile : compileStrict 1 [onAlbumB] =
      .ok (.ofGroups 1 [[⟨.albumName, .is, [.text "B"], .single .album⟩]]) := rfl
  obtain ⟨hlisting, hcounting⟩ :=
    compiled_queries_scoped hcompile ⟨.playCount, .descending⟩ ⟨0, 0⟩
  refine ⟨_, hcompile, hlisting.resolved, (hlisting.joined .interaction).mpr (.inr rfl),
    fun hjoined => ?_⟩
  obtain ⟨p, hp, hrelation⟩ := (hcounting.joined .interaction).mp hjoined
  obtain rfl := List.mem_singleton.mp hp
  cases hrelation

end GroupRecord

end Setlist
