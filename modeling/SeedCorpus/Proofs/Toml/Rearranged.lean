/-
  Values and lines in another order.

  The order of the entries of a table carries no meaning, nor does the order of the assignments of a section and that of the
  sections.  Two values are rearranged if they differ in the order of the entries of tables only, at any depth
  (`Value.Rearranged`); the items of an array keep their order.

  What is found in a rearranged table is rearranged (`Value.Rearranged.lookup`), and rearranged values are the same text, the
  same number or the same list of texts (`Value.Rearranged.readAlike`).
-/
import Mathlib.Data.Multiset.ZeroCons
import SeedCorpus.Proofs.Toml.Tables
import SeedCorpus.Toml.Record

namespace SeedCorpus.Toml

/-- Entries with the same key and related values. -/
inductive SameKey (alike : Value → Value → Prop) : String × Value → String × Value → Prop
  | mk (key : String) {v w : Value} (h : alike v w) : SameKey alike (key, v) (key, w)

/-- The entries of the tables in a value are in another order. -/
inductive Value.Rearranged : Value → Value → Prop
  | refl (v : Value) : Rearranged v v
  | array {items items' : List Value} (h : List.Forall₂ Rearranged items items') : Rearranged (.array items) (.array items')
  | table {entries entries' : Table}
      (h : Multiset.Rel (SameKey Rearranged) (entries : Multiset (String × Value)) (entries' : Multiset (String × Value))) :
      Rearranged (.table entries) (.table entries')

/-! ## What is read

A program that reads a document sees no more of a value than this. -/

/-- Two values are read as the same text, the same number and the same texts, or both as none. -/
structure Value.ReadAlike (v w : Value) : Prop where
  text : v.text? = w.text?
  integer : v.integer? = w.integer?
  texts : v.texts? = w.texts?

namespace Value

variable {v w : Value}

/-- Rearranged values are the same text, or none. -/
theorem Rearranged.text? (h : v.Rearranged w) : v.text? = w.text? := by
  cases h with
  | refl => rfl
  | array => rfl
  | table => rfl

/-- Rearranged items are the same texts. -/
theorem mapM_text?_rearranged {items items' : List Value} (h : List.Forall₂ Rearranged items items') :
    items.mapM Value.text? = items'.mapM Value.text? := by
  induction h with
  | nil => rfl
  | cons hv _ ih => rw [List.mapM_cons, List.mapM_cons, hv.text?, ih]

/-- Rearranged values are read alike. -/
theorem Rearranged.readAlike (h : v.Rearranged w) : v.ReadAlike w := by
  cases h with
  | refl => exact ⟨rfl, rfl, rfl⟩
  | array h => exact ⟨rfl, rfl, mapM_text?_rearranged h⟩
  | table => exact ⟨rfl, rfl, rfl⟩

end Value

/-! ## What is found

What a table has for a key may be there or not.  Two tables are compared at a key by `Option.Rel`: there is something on both
sides, and the two are related, or there is nothing on either. -/

section Optional

variable {α β γ : Type} {R S : α → β → Prop} {x : Option α} {y : Option β}

theorem rel_imp (h : Option.Rel R x y) (himp : ∀ a b, R a b → S a b) : Option.Rel S x y := by
  cases h with
  | none => exact .none
  | some h => exact .some (himp _ _ h)

theorem rel_turn (h : Option.Rel R x y) : Option.Rel (flip R) y x := by
  cases h with
  | none => exact .none
  | some h => exact .some h

/-- There is nothing on one side exactly if there is nothing on the other. -/
theorem rel_none (h : Option.Rel R x y) : x = none ↔ y = none := by
  cases h with
  | none => exact iff_of_true rfl rfl
  | some => exact iff_of_false (fun h => nomatch h) (fun h => nomatch h)

/-- What is there on one side has a partner on the other. -/
theorem exists_of_rel {a : α} (h : Option.Rel R (some a) y) : ∃ b, y = some b ∧ R a b := by
  cases h with
  | some h => exact ⟨_, rfl, h⟩

/-- What is related after a change was related before. -/
theorem rel_of_map {f : γ → α} {g : γ → β} {x y : Option γ} (h : Option.Rel R (x.map f) (y.map g)) :
    Option.Rel (fun a b => R (f a) (g b)) x y := by
  cases x with
  | none =>
    cases y with
    | none => exact .none
    | some _ => cases h
  | some _ =>
    cases y with
    | none => cases h
    | some _ =>
      cases h with
      | some h => exact .some h

end Optional

/-- The entries of a rearranged table. -/
theorem Value.Rearranged.entries {entries : Table} {w : Value} (h : (Value.table entries).Rearranged w) :
    ∃ entries', w = .table entries' ∧
      Multiset.Rel (SameKey Rearranged) (entries : Multiset (String × Value)) (entries' : Multiset (String × Value)) := by
  cases h with
  | refl =>
    refine ⟨entries, rfl, Multiset.rel_refl_of_refl_on fun e _ => ?_⟩
    exact .mk e.1 (.refl e.2)
  | table h => exact ⟨_, rfl, h⟩

/-- What is found under a key is rearranged, or there is nothing in either table. -/
theorem Value.Rearranged.lookup {entries entries' : Table} (h : (Value.table entries).Rearranged (.table entries'))
    (hkeys : KeysOnce entries) (hkeys' : KeysOnce entries') (key : String) :
    Option.Rel Value.Rearranged (entries.lookup key) (entries'.lookup key) := by
  obtain ⟨_, he, hrel⟩ := h.entries
  obtain rfl := Value.table.inj he
  cases hv : entries.lookup key with
  | some v =>
    -- the entry has a partner with its key, and it is the one that is found
    obtain ⟨e, hmem, hsame⟩ := Multiset.exists_mem_of_rel_of_mem hrel (mem_of_lookup hv)
    cases hsame with
    | mk _ hvw =>
      rw [hkeys'.lookup_eq_some.mpr hmem]
      exact .some hvw
  | none =>
    cases hw : entries'.lookup key with
    | none => exact .none
    | some w =>
      obtain ⟨e, hmem, hsame⟩ := Multiset.exists_mem_of_rel_of_mem (Multiset.rel_flip.mpr hrel) (mem_of_lookup hw)
      cases hsame with
      | mk _ _ =>
        rw [hkeys.lookup_eq_some.mpr hmem] at hv
        cases hv

end SeedCorpus.Toml
