import Mathlib.Data.List.Induction
import QaPlatform.Base.Transition

/-!
# Reading through a cache

A source, and in front of it a cache whose entries last for a while. What fills the cache has been
read from the source, and whoever writes the source drops the entries that it makes stale. Fills and
drops may fail, and one that is reported to have failed may have taken effect.

Two invariants are given for whoever runs such a cache. Along steps that follow the pattern
(`Follows`) every entry is what the source had at some moment of the run, and gone when its time
is over, whatever the cache answers (`entries_run`). When no drop has failed, what the cache has
is what the source has (`Exact`); a write takes that away until its keys are dropped
(`Exact.write_delete`).
-/

namespace QaPlatform

universe u v w
variable {σ : Type u} {κ : Type v} {ω : Type w} [DecidableEq κ]

/-- A value in the cache. -/
structure CacheEntry (ω : Type w) where
  value : ω
  /-- The last moment at which the entry is there. -/
  lastMoment : Nat

/-- The source and the cache at a moment. -/
structure CacheAside (σ : Type u) (κ : Type v) (ω : Type w) where
  now : Nat
  source : σ
  entries : κ → Option (CacheEntry ω)

/-- How the cache answers a set or a delete, and how long it takes. -/
structure CacheReply where
  delay : Nat
  succeeded : Bool
  effective : Bool
  honest : succeeded → effective

namespace CacheAside

/-- A cache with nothing in it. -/
def empty (now : Nat) (source : σ) : CacheAside σ κ ω := ⟨now, source, fun _ => none⟩

/-- Time passes. -/
def wait (delay : Nat) (a : CacheAside σ κ ω) : CacheAside σ κ ω := { a with now := a.now + delay }

/-- What the cache has under a key. -/
def get? (a : CacheAside σ κ ω) (k : κ) : Option ω :=
  (a.entries k).bind fun e => if a.now ≤ e.lastMoment then some e.value else none

/-- The value is put under the key for `ttl`, if the reply says that this has taken effect. -/
def set (reply : CacheReply) (ttl : Nat) (k : κ) (v : ω) (a : CacheAside σ κ ω) :
    CacheAside σ κ ω :=
  let a := a.wait reply.delay
  if reply.effective then
    { a with entries := Function.update a.entries k (some ⟨v, a.now + ttl⟩) }
  else a

/-- The keys are dropped, if the reply says that this has taken effect. -/
def delete (reply : CacheReply) (keys : List κ) (a : CacheAside σ κ ω) : CacheAside σ κ ω :=
  let a := a.wait reply.delay
  if reply.effective then { a with entries := fun k => if k ∈ keys then none else a.entries k }
  else a

/-- The source is written; the cache does not hear of it. -/
def write (source : σ) (a : CacheAside σ κ ω) : CacheAside σ κ ω := { a with source }

section
variable {a : CacheAside σ κ ω} {reply : CacheReply} {ttl : Nat} {k : κ} {v : ω} {keys : List κ}

omit [DecidableEq κ] in
theorem get?_eq_some :
    a.get? k = some v ↔ ∃ e, a.entries k = some e ∧ a.now ≤ e.lastMoment ∧ e.value = v := by
  unfold get?
  constructor
  · intro h
    obtain ⟨e, he, h⟩ := Option.bind_eq_some_iff.mp h
    split at h
    · next hlast => exact ⟨e, he, hlast, Option.some.inj h⟩
    · cases h
  · rintro ⟨e, he, hlast, rfl⟩
    rw [he, Option.bind_some, if_pos hlast]

@[simp] theorem source_set : (a.set reply ttl k v).source = a.source := by
  unfold set
  split <;> rfl

@[simp] theorem now_set : (a.set reply ttl k v).now = a.now + reply.delay := by
  unfold set
  split <;> rfl

theorem entries_set {k' : κ} {e : CacheEntry ω} (h : (a.set reply ttl k v).entries k' = some e) :
    a.entries k' = some e ∨ k' = k ∧ e = ⟨v, a.now + reply.delay + ttl⟩ := by
  unfold set at h
  split at h
  · by_cases hk : k' = k
    · subst hk
      exact .inr ⟨rfl, (Option.some.inj ((Function.update_self k' _ _).symm.trans h)).symm⟩
    · exact .inl ((Function.update_of_ne hk _ _).symm.trans h)
  · exact .inl h

@[simp] theorem source_delete : (a.delete reply keys).source = a.source := by
  unfold delete
  split <;> rfl

@[simp] theorem now_delete : (a.delete reply keys).now = a.now + reply.delay := by
  unfold delete
  split <;> rfl

theorem entries_delete {e : CacheEntry ω} (h : (a.delete reply keys).entries k = some e) :
    a.entries k = some e ∧ (reply.effective → k ∉ keys) := by
  unfold delete at h
  split at h
  · next heffective =>
    by_cases hk : k ∈ keys
    · simp [hk] at h
    · simp only [if_neg hk] at h
      exact ⟨h, fun _ => hk⟩
  · next heffective => exact ⟨h, fun hreply => absurd hreply heffective⟩

end

variable (shows : σ → κ → ω → Prop) (ttl : Nat)

/-! ## Old entries -/

/-- What a step leaves in the cache was there before, or the source has it and it lasts no longer
than the time to live. -/
structure Follows (a a' : CacheAside σ κ ω) : Prop where
  later : a.now ≤ a'.now
  entries : ∀ k e, a'.entries k = some e →
    a.entries k = some e ∨ e.lastMoment ≤ a'.now + ttl ∧ shows a'.source k e.value

section
variable {shows ttl} {a b c : CacheAside σ κ ω} {reply : CacheReply} {k : κ} {v : ω}

omit [DecidableEq κ] in
theorem Follows.refl (a : CacheAside σ κ ω) : Follows shows ttl a a :=
  ⟨Nat.le_refl _, fun _ _ h => .inl h⟩

omit [DecidableEq κ] in
theorem Follows.trans (h : Follows shows ttl a b) (h' : Follows shows ttl b c)
    (hsource : c.source = b.source) : Follows shows ttl a c where
  later := Nat.le_trans h.later h'.later
  entries k e he := by
    rcases h'.entries k e he with hb | hnew
    · refine (h.entries k e hb).imp_right fun ⟨hlast, hshows⟩ => ⟨?_, hsource ▸ hshows⟩
      have hlater := h'.later
      omega
    · exact .inr hnew

omit [DecidableEq κ] in
theorem follows_wait (delay : Nat) (a : CacheAside σ κ ω) : Follows shows ttl a (a.wait delay) :=
  ⟨Nat.le_add_right _ _, fun _ _ h => .inl h⟩

omit [DecidableEq κ] in
theorem follows_write (source : σ) (a : CacheAside σ κ ω) :
    Follows shows ttl a (a.write source) :=
  ⟨Nat.le_refl _, fun _ _ h => .inl h⟩

theorem follows_set (h : shows a.source k v) : Follows shows ttl a (a.set reply ttl k v) where
  later := by
    rw [now_set]
    exact Nat.le_add_right _ _
  entries k' e he := by
    rcases entries_set he with hold | ⟨rfl, rfl⟩
    · exact .inl hold
    · rw [now_set, source_set]
      exact .inr ⟨Nat.le_refl _, h⟩

theorem follows_delete (keys : List κ) : Follows shows ttl a (a.delete reply keys) where
  later := by
    rw [now_delete]
    exact Nat.le_add_right _ _
  entries _ _ he := .inl (entries_delete he).1

omit [DecidableEq κ] in
open Transition in
/-- Every entry is what the source had at a moment of the run, and it is gone when the time to live
is over. -/
theorem entries_run {τ ε : Type*} {step : τ → ε → τ} {view : τ → CacheAside σ κ ω}
    (hstep : ∀ s e, Follows shows ttl (view s) (view (step s e))) {s : τ}
    (hempty : ∀ k, (view s).entries k = none) (es : List ε) {k : κ} {entry : CacheEntry ω}
    (h : (view (run step s es)).entries k = some entry) :
    ∃ fs, fs <+: es ∧ (view (run step s fs)).now ≤ (view (run step s es)).now
      ∧ entry.lastMoment ≤ (view (run step s fs)).now + ttl
      ∧ shows (view (run step s fs)).source k entry.value := by
  induction es using List.reverseRecOn with
  | nil =>
    rw [run_nil, hempty] at h
    cases h
  | append_singleton es e ih =>
    rw [run_append] at h
    have hfollows := hstep (run step s es) e
    rcases hfollows.entries k entry h with hold | ⟨hlast, hshows⟩
    · obtain ⟨fs, hfs, hnow, hrest⟩ := ih hold
      refine ⟨fs, hfs.trans (List.prefix_append es [e]), ?_, hrest⟩
      rw [run_append]
      exact Nat.le_trans hnow hfollows.later
    · refine ⟨es ++ [e], List.prefix_refl _, Nat.le_refl _, ?_⟩
      rw [run_append]
      exact ⟨hlast, hshows⟩

end

/-! ## Exact entries -/

/-- What the cache has is what the source has. -/
def Exact (a : CacheAside σ κ ω) : Prop :=
  ∀ k e, a.entries k = some e → shows a.source k e.value

section
variable {shows} {a : CacheAside σ κ ω} {reply : CacheReply} {k : κ} {v : ω} {source : σ}

omit [DecidableEq κ] in
theorem exact_empty (now : Nat) (source : σ) :
    Exact shows (empty now source : CacheAside σ κ ω) := by
  intro k e h
  cases h

theorem Exact.set (h : Exact shows a) (hv : shows a.source k v) :
    Exact shows (a.set reply ttl k v) := by
  intro k' e he
  rw [source_set]
  rcases entries_set he with hold | ⟨rfl, rfl⟩
  · exact h k' e hold
  · exact hv

theorem Exact.delete (h : Exact shows a) (keys : List κ) : Exact shows (a.delete reply keys) := by
  intro k e he
  rw [source_delete]
  exact h k e (entries_delete he).1

omit [DecidableEq κ] in
/-- A write that no entry can notice. -/
theorem Exact.write (h : Exact shows a) (hsame : ∀ k v, shows a.source k v → shows source k v) :
    Exact shows (a.write source) :=
  fun k e he => hsame k e.value (h k e he)

/-- A write, and after it the keys that it is about are dropped. -/
theorem Exact.write_delete (h : Exact shows a) {keys : List κ} (hreply : reply.effective)
    (hsame : ∀ k v, k ∉ keys → shows a.source k v → shows source k v) :
    Exact shows ((a.write source).delete reply keys) := by
  intro k e he
  rw [source_delete]
  obtain ⟨hold, hkey⟩ := entries_delete he
  exact hsame k e.value (hkey hreply) (h k e hold)

end

end CacheAside

end QaPlatform
