import DottedQuery.Proofs.Query.Relabel
import DottedQuery.Proofs.Rows.Database

/-!
# Names that a query does not use

A query looks rows up by name, so it cannot tell apart two frames that bind the names it uses to
the same rows. The names it uses need not be collected for that: a relabelling that leaves the
query as it is moves none of them. Frames that agree on the names which a relabelling keeps
(`DottedQuery.Database.AgreeOn`) are therefore the same to every query that it keeps
(`DottedQuery.Select.frames_congr`, `DottedQuery.verdicts_congr`).
-/

namespace DottedQuery

variable {db : Database} {g : String → String}

namespace Database

/-- Two frames bind the names that a relabelling keeps to the same rows. -/
def AgreeOn (g : String → String) (f f' : db.Frame) : Prop :=
  ∀ a, g a = a → Dict.lookup a f = Dict.lookup a f'

variable {f f' : db.Frame}

/-- Frames that agree still do so behind the same frame. -/
theorem AgreeOn.behind (h : AgreeOn g f f') (inner : db.Frame) :
    AgreeOn g (inner ++ f) (inner ++ f') := by
  intro a ha
  rw [Dict.lookup_append, Dict.lookup_append, h a ha]

/-- A column that is kept has the same cell. -/
theorem AgreeOn.value_eq (h : AgreeOn g f f') {c : Column} (hc : c.relabel g = c) :
    db.value f c = db.value f' c := by
  have hkept : g c.table = c.table := congrArg Column.table hc
  simp only [value, h c.table hkept]

end Database

open Database (AgreeOn)

mutual

/-- **A query does not see what goes by other names**: its frames are the same. -/
theorem Select.frames_congr : ∀ (q : Select), q.relabel g = q →
    ∀ {f f' : db.Frame}, AgreeOn g f f' → q.frames db f = q.frames db f'
  | ⟨ps, source, joins, wheres, os⟩, hq, f, f', h => by
    simp only [Select.relabel, Select.mk.injEq] at hq
    obtain ⟨-, -, hjoins, hwheres, -⟩ := hq
    rw [Select.frames, Select.frames, joinedFrames_congr joins hjoins h]
    exact List.filter_congr fun f'' _ =>
      congrArg combine (verdicts_congr wheres hwheres (h.behind f''))

theorem joinedFrames_congr : ∀ (js : List Join), relabelJoins g js = js →
    ∀ {f f' : db.Frame}, AgreeOn g f f' → ∀ fs, joinedFrames db f js fs = joinedFrames db f' js fs
  | [], _, _, _, _, _ => rfl
  | j :: js, hjs, f, f', h, fs => by
    simp only [relabelJoins, List.cons.injEq] at hjs
    rw [joinedFrames, joinedFrames, joinedFrames_congr js hjs.2 h]
    exact congrArg (fun ext => joinedFrames db f' js (fs.flatMap ext))
      (funext fun f'' => j.extensions_congr hjs.1 h f'')

theorem Join.extensions_congr : ∀ (j : Join), j.relabel g = j →
    ∀ {f f' : db.Frame}, AgreeOn g f f' → ∀ f'', j.extensions db f f'' = j.extensions db f' f''
  | ⟨kind, source, on⟩, hj, f, f', h, f'' => by
    simp only [Join.relabel, Join.mk.injEq] at hj
    have hon : ∀ inner : db.Frame, combine (verdicts db (inner ++ f) on) =
        combine (verdicts db (inner ++ f') on) :=
      fun inner => congrArg combine (verdicts_congr on hj.2.2 (h.behind inner))
    simp only [Join.extensions, hon]

/-- Conditions do not see what goes by other names. -/
theorem verdicts_congr : ∀ (cs : List Condition), relabelConditions g cs = cs →
    ∀ {f f' : db.Frame}, AgreeOn g f f' → verdicts db f cs = verdicts db f' cs
  | [], _, _, _, _ => rfl
  | c :: cs, hcs, f, f', h => by
    simp only [relabelConditions, List.cons.injEq] at hcs
    rw [verdicts, verdicts, c.verdict_congr hcs.1 h, verdicts_congr cs hcs.2 h]

theorem Condition.verdict_congr : ∀ (c : Condition), c.relabel g = c →
    ∀ {f f' : db.Frame}, AgreeOn g f f' → c.verdict db f = c.verdict db f'
  | ⟨combinator, p⟩, hc, f, f', h => by
    simp only [Condition.relabel, Condition.mk.injEq] at hc
    rw [Condition.verdict, Condition.verdict, p.holds_congr hc.2 h]

theorem Predicate.holds_congr : ∀ (p : Predicate), p.relabel g = p →
    ∀ {f f' : db.Frame}, AgreeOn g f f' → p.holds db f = p.holds db f'
  | .compare column op value, hp, f, f', h => by
    simp only [Predicate.relabel, Predicate.compare.injEq] at hp
    rw [Predicate.holds, Predicate.holds, h.value_eq hp.1]
  | .inSet column negated values, hp, f, f', h => by
    simp only [Predicate.relabel, Predicate.inSet.injEq] at hp
    rw [Predicate.holds, Predicate.holds, h.value_eq hp.1]
  | .columns left op right, hp, f, f', h => by
    simp only [Predicate.relabel, Predicate.columns.injEq] at hp
    rw [Predicate.holds, Predicate.holds, h.value_eq hp.1, h.value_eq hp.2.2]
  | .exists sub, hp, f, f', h => by
    simp only [Predicate.relabel, Predicate.exists.injEq] at hp
    rw [Predicate.holds, Predicate.holds, sub.frames_congr hp h]

end

end DottedQuery
