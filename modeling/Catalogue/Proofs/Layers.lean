import Catalogue.Settings.Sources
import Mathlib.Tactic.Common

/-!
# What layers leave of one another

A source says something about a place in the tree of settings, or nothing at all (`Tree.tells`,
`Layer.tells`). Once sources are laid over one another, the tree shows at every place what the
highest source says that says anything about it (`Layer.outline_at?_merged`). That is proved for
one value that is laid over another, by induction on the path to the place and, within a table, on
its entries, and then for whole sources.
-/

namespace Catalogue.Settings

section Latest

variable {α β : Type} {f : α → Option β} {a : α} {l : List α} {value : β}

/-- What the last element of a list answers that answers at all. -/
def latest? (f : α → Option β) (l : List α) : Option β := l.reverse.findSome? f

/-- Whether the highest of some layers that answers at all gives this answer. -/
def Highest (f : α → Option β) (layers : List α) (value : β) : Prop :=
  ∃ lower layer higher, layers = lower ++ layer :: higher ∧ f layer = some value ∧
    ∀ other ∈ higher, f other = none

@[simp] theorem latest?_nil : latest? f [] = none := rfl

@[simp] theorem latest?_cons : latest? f (a :: l) = (latest? f l).or (f a) := by
  simp [latest?, List.findSome?_append]

theorem latest?_eq_none_iff : latest? f l = none ↔ ∀ a ∈ l, f a = none := by
  simp [latest?]

theorem latest?_eq_some_iff : latest? f l = some value ↔ Highest f l value := by
  constructor
  · intro h
    induction l with
    | nil => cases h
    | cons a l ih =>
      rw [latest?_cons] at h
      cases hl : latest? f l with
      | none =>
        rw [hl, Option.none_or] at h
        exact ⟨[], a, l, rfl, h, latest?_eq_none_iff.1 hl⟩
      | some v =>
        rw [hl, Option.some_or] at h
        obtain ⟨lower, layer, higher, rfl, hlayer, hhigher⟩ := ih (hl.trans h)
        exact ⟨a :: lower, layer, higher, rfl, hlayer, hhigher⟩
  · rintro ⟨lower, layer, higher, rfl, hlayer, hhigher⟩
    have hnone := latest?_eq_none_iff.2 hhigher
    induction lower with
    | nil => rw [List.nil_append, latest?_cons, hnone, Option.none_or, hlayer]
    | cons a lower ih => rw [List.cons_append, latest?_cons, ih, Option.some_or]

/-- What no element answers is not the last answer. -/
theorem latest?_ne (h : ∀ a, f a ≠ some value) : latest? f l ≠ some value := by
  intro hlatest
  obtain ⟨_, layer, _, -, hlayer, -⟩ := latest?_eq_some_iff.1 hlatest
  exact h layer hlayer

/-- Lists that answer alike, one element like the other, have the same last answer. -/
theorem latest?_congr {l' : List α} (h : List.Forall₂ (fun a b => f a = f b) l l') :
    latest? f l = latest? f l' := by
  induction h with
  | nil => rfl
  | cons hab _ ih => rw [latest?_cons, latest?_cons, ih, hab]

theorem latest?_map {γ : Type} (g : β → γ) :
    latest? (fun a => (f a).map g) l = (latest? f l).map g := by
  induction l with
  | nil => rfl
  | cons a l ih =>
    rw [latest?_cons, latest?_cons, ih]
    cases latest? f l <;> rfl

end Latest

namespace Tree

/-- What a value says about the place at the end of a path. Of the entries of a table that say
anything the last one counts, and a table without entries says nothing. A value that is no table
says that there is nothing beneath it. -/
def tells : List String → Tree → Option Tree
  | [], .table [] => none
  | [], value => some value
  | key :: path, .table entries =>
    latest? (fun (k, v) => if k = key then tells path v else none) entries
  | _ :: _, _ => some .nothing

/-- The value at the end of a path. -/
def at? : List String → Tree → Option Tree
  | [], tree => some tree
  | key :: path, tree => (tree.get? key).bind (at? path)

/-- What can be seen of a value from outside: of a table only that it has entries, and of nothing or
a table without entries nothing. -/
def outline? : Tree → Option Tree
  | .nothing | .table [] => none
  | .table (_ :: _) => some (.table [])
  | value => some value

theorem tells_ne_empty (path : List String) (value : Tree) :
    tells path value ≠ some (.table []) := by
  induction path generalizing value with
  | nil => rcases value with _ | _ | _ | _ | _ | _ | (_ | _) <;> simp [tells]
  | cons key path ih =>
    cases value with
    | table entries =>
      refine latest?_ne fun (k, v) => ?_
      dsimp only
      split_ifs
      · exact ih v
      · exact nofun
    | nothing | boolean _ | integer _ | float _ | text _ | list _ => simp [tells]

/-- From outside a list is seen as what it is. -/
theorem bind_outline?_eq_list_iff {value? : Option Tree} {items : List Tree} :
    value?.bind outline? = some (.list items) ↔ value? = some (.list items) := by
  cases value? with
  | none => simp
  | some value => rcases value with _ | _ | _ | _ | _ | _ | (_ | _) <;> simp [outline?]

theorem lookup_put (key k : String) (value : Tree) (entries : List (String × Tree)) :
    (put k value entries).lookup key = if k = key then some value else entries.lookup key := by
  induction entries with
  | nil =>
    by_cases h : k = key
    · simp [put, h]
    · have hne : (key == k) = false := beq_false_of_ne (Ne.symm h)
      simp [put, List.lookup_cons, h, hne]
  | cons entry rest ih =>
    obtain ⟨k', v'⟩ := entry
    unfold put
    by_cases h' : k' = k
    · rw [if_pos h', List.lookup_cons, List.lookup_cons, h']
      by_cases h : k = key
      · simp [h]
      · have hne : (key == k) = false := beq_false_of_ne (Ne.symm h)
        simp [h, hne]
    · rw [if_neg h', List.lookup_cons, List.lookup_cons, ih]
      by_cases h : k = key
      · have hne : (key == k') = false := beq_false_of_ne (h ▸ Ne.symm h')
        simp [h, hne]
      · simp [h]

theorem put_ne_nil (key : String) (value : Tree) (entries : List (String × Tree)) :
    put key value entries ≠ [] := by
  cases entries with
  | nil => exact List.cons_ne_nil _ _
  | cons entry rest =>
    unfold put
    split_ifs <;> exact List.cons_ne_nil _ _

theorem or_bind_congr {α β : Type} {f : α → Option β} {a b : Option α} (s : Option α)
    (h : a.bind f = b.bind f) : (s.or a).bind f = (s.or b).bind f := by
  cases s with
  | none => simpa using h
  | some value => rfl

theorem outline?_layerEntries (entries : List (String × Tree)) {olds : List (String × Tree)}
    (h : olds ≠ []) : (layerEntries (.table olds) entries).outline? = some (.table []) := by
  induction entries generalizing olds with
  | nil =>
    obtain ⟨_, _, rfl⟩ := List.exists_cons_of_ne_nil h
    rfl
  | cons entry rest ih =>
    rw [layerEntries]
    exact ih (put_ne_nil _ _ _)

/-- **One value laid over another.** At every place the tree shows what the new value says about it,
and what was there before if it says nothing. -/
theorem outline_at?_layered (path : List String) (old : Option Tree) (new : Tree) :
    ((layered old new).at? path).bind outline? =
      ((tells path new).or (old.bind (at? path))).bind outline? := by
  induction path generalizing old new with
  | nil =>
    rcases new with _ | _ | _ | _ | _ | _ | (_ | ⟨⟨k, v⟩, rest⟩)
    case table.nil => rcases old with _ | _ | _ <;> rfl
    case table.cons => exact outline?_layerEntries rest (put_ne_nil _ _ _)
    all_goals rfl
  | cons key path ih =>
    have hentries : ∀ (entries : List (String × Tree)) (old : Tree),
        ((layerEntries old entries).at? (key :: path)).bind outline? =
          ((tells (key :: path) (.table entries)).or (old.at? (key :: path))).bind outline? := by
      intro entries
      induction entries with
      | nil => exact fun old => rfl
      | cons entry rest ihrest =>
        intro old
        obtain ⟨k, v⟩ := entry
        have htells : tells (key :: path) (.table ((k, v) :: rest)) =
            (tells (key :: path) (.table rest)).or (if k = key then tells path v else none) := by
          simp only [tells, latest?_cons]
        rw [layerEntries, ihrest, htells, Option.or_assoc]
        refine or_bind_congr _ ?_
        show (((put k (layered (old.get? k) v) old.entries).lookup key).bind (at? path)).bind
          outline? = _
        rw [lookup_put]
        by_cases hk : k = key
        · rw [if_pos hk, if_pos hk, Option.bind_some, ih, hk]
          rfl
        · rw [if_neg hk, if_neg hk, Option.none_or]
          rfl
    cases new with
    | table entries =>
      have hold : (ground old).at? (key :: path) = old.bind (at? (key :: path)) := by
        rcases old with _ | _ | _ <;> rfl
      rw [layered, hentries, hold]
    | nothing | boolean _ | integer _ | float _ | text _ | list _ => rfl

end Tree

/-- The entries of a source, at whose top keys may be paths. -/
abbrev Layer := List (String × Tree)

/-- The tree with all layers laid over one another. -/
def merged (layers : List Layer) : Tree := layers.foldl Tree.withSource (.table [])

/-- What an entry of a source says about a place. -/
def entryTells (path : List String) (entry : String × Tree) : Option Tree :=
  Tree.tells path (Tree.nest (Tree.pathOf entry.1) entry.2)

/-- What a source says about a place: what the last of its entries says that says anything. -/
def Layer.tells (path : List String) (layer : Layer) : Option Tree :=
  latest? (entryTells path) layer

namespace Layer

theorem tells_ne_empty (path : List String) (layer : Layer) :
    layer.tells path ≠ some (.table []) :=
  latest?_ne fun _ => Tree.tells_ne_empty path _

theorem outline_at?_withSource (path : List String) (tree : Tree) (layer : Layer) :
    ((tree.withSource layer).at? path).bind Tree.outline? =
      ((layer.tells path).or (tree.at? path)).bind Tree.outline? := by
  induction layer generalizing tree with
  | nil => rfl
  | cons entry rest ih =>
    have hrest := ih (Tree.layered (some tree) (Tree.nest (Tree.pathOf entry.1) entry.2))
    have htells : tells path (entry :: rest) = (tells path rest).or (entryTells path entry) :=
      latest?_cons
    rw [htells, Option.or_assoc]
    refine hrest.trans (Tree.or_bind_congr _ ?_)
    exact Tree.outline_at?_layered path (some tree) _

/-- **All layers over one another.** At every place the tree shows what the highest layer says that
says anything about it. -/
theorem outline_at?_merged (key : String) (path : List String) (layers : List Layer) :
    ((merged layers).at? (key :: path)).bind Tree.outline? =
      (latest? (tells (key :: path)) layers).bind Tree.outline? := by
  have hfold : ∀ (tree : Tree),
      ((layers.foldl Tree.withSource tree).at? (key :: path)).bind Tree.outline? =
        ((latest? (tells (key :: path)) layers).or
          (tree.at? (key :: path))).bind Tree.outline? := by
    induction layers with
    | nil => exact fun tree => rfl
    | cons layer rest ih =>
      intro tree
      rw [List.foldl_cons, ih, latest?_cons, Option.or_assoc]
      exact Tree.or_bind_congr _ (outline_at?_withSource _ tree layer)
  unfold merged
  rw [hfold]
  cases latest? (tells (key :: path)) layers <;> rfl

end Layer

end Catalogue.Settings
