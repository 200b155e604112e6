/-!
# Request targets

A request says what it wants by a *target*. Mostly that is a path alone (`/health`); a client
that speaks through another server writes the whole address, a scheme and an authority before
the path (`http://host:80/health`). After the path there may be a query, begun by `?`, and a
fragment, begun by `#`.

`DottedQuery.Gateway.Target.path?` is the path of a target in either form, so that both forms of
one request are answered alike. Scheme and authority are passed over and their characters are
not judged. An address without anything after the authority has the path `/`; a target that
names only an authority, or none at all after its scheme, has no path.

* `DottedQuery.Gateway.Target.path?_of_slash` – a target that begins with `/` is its path, up to
  the query or the fragment;
* `DottedQuery.Gateway.Target.path?_of_address` – what stands before the path makes no difference;
* `DottedQuery.Gateway.Target.path?_of_query` – nor does what stands behind it.
-/

namespace DottedQuery

namespace Gateway

namespace Target

/-- The characters at which a path ends. -/
def endsPath (c : Char) : Bool := c = '?' || c = '#'

/-- The characters at which an authority ends. -/
def endsAuthority (c : Char) : Bool := c = '/' || endsPath c

/-- The characters up to the query or the fragment. -/
def barePath (cs : List Char) : List Char := cs.takeWhile fun c => !endsPath c

/-- What follows the `://` after a scheme. The first colon ends the scheme. -/
def afterScheme? (cs : List Char) : Option (List Char) :=
  match cs.dropWhile fun c => c ≠ ':' with
  | ':' :: '/' :: '/' :: rest => some rest
  | _ => none

/-- What follows an authority, which has at least one character. -/
def afterAuthority? : List Char → Option (List Char)
  | [] => none
  | c :: cs => if endsAuthority c then none else some (cs.dropWhile fun c => !endsAuthority c)

/-- The path that follows an authority; when there is none, it is `/`. -/
def pathOrRoot (cs : List Char) : List Char :=
  match barePath cs with
  | [] => ['/']
  | path => path

/-- The path of a target, as lists of characters. -/
def pathChars? : List Char → Option (List Char)
  | '/' :: cs => some (barePath ('/' :: cs))
  | cs => ((afterScheme? cs).bind afterAuthority?).map pathOrRoot

/-- **The path of a target.** -/
def path? (target : String) : Option String := (pathChars? target.toList).map String.ofList

/-! ### What stands around a path -/

/-- A path ends at the first character that ends one. -/
theorem barePath_append (cs : List Char) {d : Char} (hd : endsPath d = true) (rest : List Char) :
    barePath (cs ++ d :: rest) = barePath cs := by
  induction cs with
  | nil => simp [barePath, hd]
  | cons c cs ih =>
    simp only [barePath, List.cons_append, List.takeWhile_cons] at ih ⊢
    rw [ih]

theorem afterScheme?_append {scheme : List Char} (hs : ':' ∉ scheme) (rest : List Char) :
    afterScheme? (scheme ++ ':' :: '/' :: '/' :: rest) = some rest := by
  have h : ∀ c ∈ scheme, decide (c ≠ ':') = true := fun c hc =>
    decide_eq_true fun he => hs (he ▸ hc)
  rw [afterScheme?, List.dropWhile_append_of_pos h]
  rfl

theorem afterAuthority?_append {authority : List Char} (hne : authority ≠ [])
    (ha : ∀ c ∈ authority, endsAuthority c = false) {d : Char} (hd : endsAuthority d = true)
    (cs : List Char) : afterAuthority? (authority ++ d :: cs) = some (d :: cs) := by
  cases authority with
  | nil => exact absurd rfl hne
  | cons c authority =>
    have h : ∀ x ∈ authority, (!endsAuthority x) = true := fun x hx => by
      simp [ha x (List.mem_cons_of_mem c hx)]
    simp [afterAuthority?, ha c List.mem_cons_self, List.dropWhile_append_of_pos h, hd]

theorem path?_of_slash (cs : List Char) :
    path? (String.ofList ('/' :: cs)) = some (String.ofList (barePath ('/' :: cs))) := by
  simp [path?, pathChars?]

/-- **The query and the fragment behind a path make no difference.** -/
theorem path?_of_query (cs : List Char) {d : Char} (hd : endsPath d = true) (rest : List Char) :
    path? (String.ofList ('/' :: (cs ++ d :: rest))) = path? (String.ofList ('/' :: cs)) := by
  rw [path?_of_slash, path?_of_slash, ← List.cons_append, barePath_append _ hd]

/-- **The address before a path makes no difference**, where the scheme has no colon and does
not begin with `/`, and the authority is not empty and holds nothing that would end it. -/
theorem path?_of_address {scheme authority : List Char} (hs : ':' ∉ scheme)
    (hslash : scheme.head? ≠ some '/') (hne : authority ≠ [])
    (ha : ∀ c ∈ authority, endsAuthority c = false) (cs : List Char) :
    path? (String.ofList (scheme ++ ':' :: '/' :: '/' :: (authority ++ '/' :: cs))) =
      path? (String.ofList ('/' :: cs)) := by
  have hpath : pathOrRoot ('/' :: cs) = barePath ('/' :: cs) := by
    simp [pathOrRoot, barePath, endsPath]
  have haddress := afterScheme?_append hs (authority ++ '/' :: cs)
  rw [path?_of_slash, path?, String.toList_ofList, pathChars?]
  · rw [haddress, Option.bind_some, afterAuthority?_append hne ha rfl cs, Option.map_some, hpath,
      Option.map_some]
  · cases scheme with
    | nil => simp
    | cons c scheme => simp_all

end Target

end Gateway

end DottedQuery
