import DottedQuery.Proofs.Search.Written

/-!
# What the joins of an order start from

A path may come to a table again: through a relation of an entity with itself, back to the table
that is searched, or from one entity to another one that has the same table. The table of aliases
then forgets the alias it had for it. This does no harm, since a relation always starts from the
entity the path has just come to, and the alias of its table is the one written last.

So the joins of an order are a plain sequence (`DottedQuery.OrderPath.joins_consecutive`). Its
tables go by the names `DottedQuery.OrderPath.chainName`: the table that is searched by its own,
the others by the aliases of the supply in turn. Every join ties the table under one of these
names to the table under the next one, and the order is by the last one.
-/

namespace DottedQuery

namespace OrderPath

/-! ### The names along a chain -/

/-- **What the tables of a chain go by**: the one it starts from by the name `parent`, every other
one by the next alias. -/
def chainName (parent : String) (supply : AliasSupply) : Nat → String
  | 0 => parent
  | i + 1 => (supply.after i).current

/-- Behind its first join, a chain starts from the alias of that join. -/
theorem chainName_taken (parent : String) (supply : AliasSupply) (i : Nat) :
    chainName supply.current supply.taken i = chainName parent supply (i + 1) := by
  cases i with
  | zero => rfl
  | succ i => rw [chainName, chainName, AliasSupply.after_taken]

/-- The join of a link, from a table that goes by `parent`. -/
def linkJoin (l : Link) (parent label : String) : Join :=
  ⟨.left, ⟨l.2.table, some label⟩, l.1.joinOn parent label⟩

/-- **Each join of a chain leads from one of the names to the next.** -/
theorem chainJoins_eq_mapIdx (links : List Link) (parent : String) (supply : AliasSupply) :
    chainJoins links parent supply = links.mapIdx fun i l =>
      linkJoin l (chainName parent supply i) (chainName parent supply (i + 1)) := by
  induction links generalizing parent supply with
  | nil => rfl
  | cons l links ih =>
    simp only [chainJoins, List.mapIdx_cons, ih, chainName_taken parent]
    rfl

/-- A chain ends with the last of the names. -/
theorem chainEnd_eq_chainName (links : List Link) (parent : String) (supply : AliasSupply) :
    chainEnd links parent supply = chainName parent supply links.length := by
  induction links generalizing parent supply with
  | nil => rfl
  | cons l links ih => rw [chainEnd, ih, chainName_taken parent, List.length_cons]

/-! ### The joins of an order -/

/-- **The joins of an order are a plain sequence.** Following its relations with a table of aliases,
which is empty at the beginning, comes to the same as following them without one, failures included.
If they can be followed, there is one left join for each of them. The first one ties its table to
that of the root, which goes by its own name; every other one ties its table to the one joined
before it, which goes by the alias just taken. The order is by the table that was joined last. -/
theorem joins_consecutive (catalog : Catalog) (field : String) (names : List String) (root : Entity)
    (supply : AliasSupply) :
    joins catalog field names root Dict.empty supply =
        joinsFrom catalog field names root root.table supply ∧
      ∀ joined, joins catalog field names root Dict.empty supply = .ok joined →
        ∃ links, catalog.Follows root names links ∧
          joined.joins = (links.mapIdx fun i l =>
            linkJoin l (chainName root.table supply i) (chainName root.table supply (i + 1))) ∧
          joined.qualifier = chainName root.table supply names.length ∧
          joined.supply = supply.after names.length := by
  have hplain : joins catalog field names root Dict.empty supply =
      joinsFrom catalog field names root root.table supply :=
    joins_eq_joinsFrom catalog field names root Dict.empty supply
  refine ⟨hplain, fun joined h => ?_⟩
  rw [hplain, joinsFrom_eq] at h
  obtain ⟨links, hchain, rfl⟩ := map_eq_ok_iff.mp h
  rw [← length_of_chain hchain]
  exact ⟨links, follows_of_chain hchain, chainJoins_eq_mapIdx links root.table supply,
    chainEnd_eq_chainName links root.table supply, rfl⟩

end OrderPath

/-! ### A path that comes to its tables again -/

namespace Blog

/-- A user whose posts may be used in orders. -/
def writer : Entity := user.allow "posts"

/-- A post with its author and its editor. -/
def edited : Entity :=
  ((post.addRelation (.belongsTo "editor" "Editor" "editor_id" "id")).allow "author").allow "editor"

/-- An editor, who is one of the users. -/
def editor : Entity :=
  ((Entity.ofTable "Editor" "users").addRelation
    (.belongsTo "manager" "User" "manager_id" "id")).allow "manager"

/-- The catalog with editors, two entities of which have the table of users. -/
def editorial : Catalog := ((catalog.add writer).add edited).add editor

/-- The way from a user over the posts to their editors, and the same again from the managers of
these to the authors. -/
def roundTrip : List String := ["posts", "editor", "manager", "posts", "author"]

end Blog

/-- The theorem at a path through two tables that comes to each of them again, to the table that is
searched under the names of two entities; two aliases have been taken before. -/
theorem OrderPath.joins_consecutive_blog :
    ∃ joined,
      joins Blog.editorial "name" Blog.roundTrip Blog.writer Dict.empty (.after .forJoins 2) =
        .ok joined ∧
      joinsFrom Blog.editorial "name" Blog.roundTrip Blog.writer "users" (.after .forJoins 2) =
        .ok joined ∧
      joined.joins.map Join.source =
        [⟨"posts", some "joined_2"⟩, ⟨"users", some "joined_3"⟩, ⟨"users", some "joined_4"⟩,
          ⟨"posts", some "joined_5"⟩, ⟨"users", some "joined_6"⟩] ∧
      joined.qualifier = "joined_6" ∧
      ∃ links, Blog.editorial.Follows Blog.writer Blog.roundTrip links ∧
        joined.joins = links.mapIdx fun i l =>
          linkJoin l (chainName "users" (.after .forJoins 2) i)
            (chainName "users" (.after .forJoins 2) (i + 1)) := by
  obtain ⟨joined, hjoined, hsources⟩ : ∃ joined,
      joins Blog.editorial "name" Blog.roundTrip Blog.writer Dict.empty (.after .forJoins 2) =
        .ok joined ∧
      joined.joins.map Join.source =
        [⟨"posts", some "joined_2"⟩, ⟨"users", some "joined_3"⟩, ⟨"users", some "joined_4"⟩,
          ⟨"posts", some "joined_5"⟩, ⟨"users", some "joined_6"⟩] := ⟨_, rfl, rfl⟩
  obtain ⟨hplain, hsequence⟩ := joins_consecutive Blog.editorial "name" Blog.roundTrip Blog.writer
    (.after .forJoins 2)
  obtain ⟨links, hfollows, hjoins, hqualifier, -⟩ := hsequence joined hjoined
  exact ⟨joined, hjoined, hplain.symm.trans hjoined, hsources, hqualifier, links, hfollows, hjoins⟩

end DottedQuery
