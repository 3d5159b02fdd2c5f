import Mathlib.Data.List.Basic

/-! # Tables that are written once

A key that has a value keeps it: an offer of the same value changes nothing and an offer of another one is refused.
So the value of a key is the first it was offered, and two stores that keep such a table are told apart by nothing but
the entries they admit. -/

namespace ProofEngine.WriteOnce

variable {κ ν : Type*} [DecidableEq κ]

abbrev Table (κ ν : Type*) := κ → Option ν

/-- The table after an offer. -/
def Table.offer (table : Table κ ν) (entry : κ × ν) : Table κ ν :=
  fun key => (table key).or (if key = entry.1 then some entry.2 else none)

/-- Nothing else is held under the key. -/
def Table.Accepts (table : Table κ ν) (entry : κ × ν) : Prop := ∀ value, table entry.1 = some value → value = entry.2

theorem offer_held {table : Table κ ν} {entry : κ × ν} {value : ν} (held : table entry.1 = some value) :
    table.offer entry = table := by
  funext key
  by_cases here : key = entry.1
  · rw [Table.offer, here, held, Option.some_or]
  · rw [Table.offer, if_neg here, Option.or_none]

theorem offer_of_not_accepts {table : Table κ ν} {entry : κ × ν} (refused : ¬ table.Accepts entry) :
    table.offer entry = table := by
  cases held : table entry.1 with
  | none => exact absurd (fun value found => by rw [held] at found; cases found) refused
  | some value => exact offer_held held

/-! ## Stores -/

variable {σ σ' ε ε' : Type*}

/-- A store that keeps a table of the entries it admits, among those that it may be offered. -/
structure Keeps (put : σ → κ × ν → Except ε σ) (view : σ → Table κ ν) (offered admits : κ × ν → Prop)
    (sound : σ → Prop) : Prop where
  accepted : ∀ store entry, sound store → offered entry → admits entry → (view store).Accepts entry →
    ∃ next, put store entry = .ok next ∧ sound next ∧ view next = (view store).offer entry
  refused : ∀ store entry, sound store → offered entry → ¬ (admits entry ∧ (view store).Accepts entry) →
    ∃ failure, put store entry = .error failure

/-- One put after the other; a store that refuses one stays as it is. -/
def fill (put : σ → κ × ν → Except ε σ) (store : σ) (entries : List (κ × ν)) : σ :=
  entries.foldl (fun store entry => (put store entry).toOption.getD store) store

section
variable {put : σ → κ × ν → Except ε σ} {view : σ → Table κ ν} {offered admits : κ × ν → Prop} {sound : σ → Prop}

theorem Keeps.put_isOk_iff (keeps : Keeps put view offered admits sound) {store : σ} {entry : κ × ν}
    (held : sound store) (may : offered entry) :
    (put store entry).isOk = true ↔ admits entry ∧ (view store).Accepts entry := by
  constructor
  · intro done
    by_contra refused
    obtain ⟨failure, failed⟩ := keeps.refused store entry held may refused
    rw [failed] at done
    cases done
  · rintro ⟨admitted, accepts⟩
    obtain ⟨next, done, _⟩ := keeps.accepted store entry held may admitted accepts
    rw [done]
    rfl

theorem Keeps.fill (keeps : Keeps put view offered admits sound) {entries : List (κ × ν)} (store : σ)
    (held : sound store) (admitted : ∀ entry ∈ entries, offered entry ∧ admits entry) :
    sound (fill put store entries) ∧ view (fill put store entries) = entries.foldl Table.offer (view store) := by
  induction entries generalizing store with
  | nil => exact ⟨held, rfl⟩
  | cons entry entries inductionHypothesis =>
    obtain ⟨⟨may, here⟩, later⟩ := List.forall_mem_cons.mp admitted
    rw [WriteOnce.fill, List.foldl_cons, List.foldl_cons]
    by_cases accepts : (view store).Accepts entry
    · obtain ⟨next, done, nextHeld, offered⟩ := keeps.accepted store entry held may here accepts
      rw [done, ← offered]
      exact inductionHypothesis next nextHeld later
    · obtain ⟨failure, failed⟩ := keeps.refused store entry held may fun both => accepts both.2
      rw [failed, offer_of_not_accepts accepts]
      exact inductionHypothesis store held later

end

/-- Two stores that start alike and admit the entries of a run accept the same of them and end alike. -/
theorem Keeps.alike {put : σ → κ × ν → Except ε σ} {view : σ → Table κ ν} {offered admits : κ × ν → Prop}
    {sound : σ → Prop} {put' : σ' → κ × ν → Except ε' σ'} {view' : σ' → Table κ ν} {offered' admits' : κ × ν → Prop}
    {sound' : σ' → Prop} (keeps : Keeps put view offered admits sound)
    (keeps' : Keeps put' view' offered' admits' sound')
    {store : σ} {store' : σ'} (held : sound store) (held' : sound' store') (same : view store = view' store')
    {entries : List (κ × ν)} (admitted : ∀ entry ∈ entries, offered entry ∧ admits entry)
    (admitted' : ∀ entry ∈ entries, offered' entry ∧ admits' entry) :
    view (WriteOnce.fill put store entries) = view' (WriteOnce.fill put' store' entries) ∧
      ∀ before entry after, entries = before ++ entry :: after →
        (put (WriteOnce.fill put store before) entry).isOk =
          (put' (WriteOnce.fill put' store' before) entry).isOk := by
  constructor
  · rw [(keeps.fill store held admitted).2, (keeps'.fill store' held' admitted').2, same]
  · rintro before entry after rfl
    obtain ⟨may, here⟩ := admitted entry (List.mem_append_right _ List.mem_cons_self)
    obtain ⟨may', here'⟩ := admitted' entry (List.mem_append_right _ List.mem_cons_self)
    obtain ⟨sound, views⟩ := keeps.fill store held fun entry member => admitted entry (List.mem_append_left _ member)
    obtain ⟨sound', views'⟩ :=
      keeps'.fill store' held' fun entry member => admitted' entry (List.mem_append_left _ member)
    rw [Bool.eq_iff_iff, keeps.put_isOk_iff sound may, keeps'.put_isOk_iff sound' may', views, views', same]
    exact and_congr_left fun _ => iff_of_true here here'

end ProofEngine.WriteOnce
