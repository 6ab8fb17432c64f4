import Mathlib.Logic.Function.Basic
import QaPlatform.Base.Table

/-! Exclusive leases over any resources. A pool says which lease each resource
points at, which resource each lease was taken on, and which leases are live. It
is sound when pointers and leases agree; then no two live leases share a
resource. Leases end in many ways and begin in one: `Sound.shrink` is the rule
for every step that ends some, `Sound.grant` the rule for the step that adds one.
The second half reads a pool off two tables, one of resources and one of leases,
and gives a rule for each way of writing to them. -/

namespace QaPlatform

universe u v

/-- Resources that point at leases, and leases that were taken on resources. -/
structure LeasePool (δ : Type u) (ι : Type v) where
  /-- The lease a resource points at. -/
  holder : δ → Option ι
  /-- The resource a lease was taken on. -/
  resource : ι → Option δ
  live : ι → Prop

namespace LeasePool

variable {δ : Type u} {ι : Type v} {p p' : LeasePool δ ι}

/-- The two directions agree for the leases that are alive. -/
structure Sound (p : LeasePool δ ι) : Prop where
  /-- A live lease is the one its resource points at. -/
  pointed : ∀ {l d}, p.live l → p.resource l = some d → p.holder d = some l
  /-- A resource points only at leases taken on it. -/
  owned : ∀ {d l}, p.holder d = some l → p.resource l = some d

theorem Sound.exclusive (h : p.Sound) {l₁ l₂ : ι} {d : δ} (h₁ : p.live l₁) (h₂ : p.live l₂)
    (hr₁ : p.resource l₁ = some d) (hr₂ : p.resource l₂ = some d) : l₁ = l₂ := by
  have e₁ : p.holder d = some l₁ := h.pointed h₁ hr₁
  have e₂ : p.holder d = some l₂ := h.pointed h₂ hr₂
  rw [e₁] at e₂
  exact Option.some.inj e₂

/-- Leases may end and a resource may drop its pointer, as long as no resource
drops the pointer to a lease that stays live. -/
theorem Sound.shrink (h : p.Sound) (hres : ∀ l, p'.resource l = p.resource l)
    (hlive : ∀ l, p'.live l → p.live l)
    (hholder : ∀ d, p'.holder d = p.holder d
      ∨ p'.holder d = none ∧ ∀ l, p.holder d = some l → ¬ p'.live l) : p'.Sound where
  pointed := by
    intro l d hl hd
    rw [hres] at hd
    have hp : p.holder d = some l := h.pointed (hlive l hl) hd
    rcases hholder d with he | ⟨-, hdead⟩
    · rw [he]
      exact hp
    · exact absurd hl (hdead l hp)
  owned := by
    intro d l hd
    rw [hres]
    rcases hholder d with he | ⟨hnone, -⟩
    · exact h.owned (he ▸ hd)
    · simp [hnone] at hd

variable [DecidableEq δ] [DecidableEq ι]

/-- A resource that points at no live lease may be given to a new one. -/
theorem Sound.grant (h : p.Sound) {l : ι} {d : δ} (hfresh : p.resource l = none)
    (hfree : ∀ l', p.holder d = some l' → ¬ p.live l')
    (hres : p'.resource = Function.update p.resource l (some d))
    (hlive : ∀ l', p'.live l' → l' = l ∨ p.live l')
    (hholder : p'.holder = Function.update p.holder d (some l)) : p'.Sound where
  pointed := by
    intro l' d' hl hd
    rw [hres] at hd
    rw [hholder]
    by_cases he : l' = l
    · subst he
      obtain rfl : d = d' := by simpa using hd
      simp
    · rw [Function.update_of_ne he] at hd
      have hold : p.live l' := (hlive l' hl).resolve_left he
      have hp : p.holder d' = some l' := h.pointed hold hd
      have hne : d' ≠ d := fun e => hfree l' (e ▸ hp) hold
      rw [Function.update_of_ne hne, hp]
  owned := by
    intro d' l' hd
    rw [hholder] at hd
    rw [hres]
    by_cases he : d' = d
    · subst he
      obtain rfl : l = l' := by simpa using hd
      simp
    · rw [Function.update_of_ne he] at hd
      have hr : p.resource l' = some d' := h.owned hd
      have hne : l' ≠ l := by
        rintro rfl
        rw [hfresh] at hr
        simp at hr
      rw [Function.update_of_ne hne, hr]

end LeasePool

/-! ## Pools kept in tables -/

namespace Table

universe w
variable {δ : Type u} {ι : Type w} [Keyed δ] [Keyed ι]

/-- The pool of a table of resources and a table of leases. -/
def leasePool (holder : δ → Option Nat) (resource : ι → Nat) (live : ι → Prop)
    (devices : Table δ) (leases : Table ι) : LeasePool Nat Nat where
  holder d := (devices.get? d).bind holder
  resource l := (leases.get? l).map resource
  live l := ∃ x, leases.get? l = some x ∧ live x

variable {holder : δ → Option Nat} {resource : ι → Nat} {live : ι → Prop}
  {devices : Table δ} {leases : Table ι}

theorem leasePool_holder {d : δ} (hd : devices.get? (key d) = some d) :
    (leasePool holder resource live devices leases).holder (key d) = holder d := by
  simp [leasePool, hd]

theorem leasePool_resource {l : ι} (hl : leases.get? (key l) = some l) :
    (leasePool holder resource live devices leases).resource (key l) = some (resource l) := by
  simp [leasePool, hl]

theorem sound_empty :
    (leasePool holder resource live (empty : Table δ) (empty : Table ι)).Sound where
  pointed := by
    rintro l d ⟨x, hx, -⟩
    simp at hx
  owned := by
    intro d l hd
    simp [leasePool] at hd

/-- The resource does not point at a live lease. -/
def Free (holder : δ → Option Nat) (live : ι → Prop) (leases : Table ι) (d : δ) : Prop :=
  ∀ l x, holder d = some l → leases.get? l = some x → ¬ live x

theorem leasePool_free {d : δ} (hfree : Free holder live leases d) {l : Nat}
    (hl : holder d = some l) : ¬ (leasePool holder resource live devices leases).live l := by
  rintro ⟨x, hx, hlive⟩
  exact hfree l x hl hx hlive

/-- A resource may be rewritten when it keeps its pointer or drops a dead one. -/
theorem sound_putResource (h : (leasePool holder resource live devices leases).Sound) {d d' : δ}
    (hd : devices.get? (key d) = some d) (hkey : key d' = key d)
    (hptr : holder d' = holder d ∨ holder d' = none ∧ Free holder live leases d) :
    (leasePool holder resource live (devices.put d') leases).Sound := by
  refine h.shrink (fun _ => rfl) (fun _ hl => hl) (fun k => ?_)
  by_cases hk : key d = k
  · subst hk
    have hnew : (leasePool holder resource live (devices.put d') leases).holder (key d)
        = holder d' := by
      simp [leasePool, get?_put_self hd hkey]
    rw [hnew, leasePool_holder hd]
    exact hptr.imp id (fun hdrop => ⟨hdrop.1, fun l hl => leasePool_free hdrop.2 hl⟩)
  · left
    show ((devices.put d').get? k).bind _ = (devices.get? k).bind _
    rw [get?_put_of_ne (by simpa [hkey] using hk)]

/-- A lease may be rewritten when it stays on its resource and does not come
back to life. -/
theorem sound_putLease (h : (leasePool holder resource live devices leases).Sound) {l l' : ι}
    (hl : leases.get? (key l) = some l) (hkey : key l' = key l) (hres : resource l' = resource l)
    (hlive : live l' → live l) :
    (leasePool holder resource live devices (leases.put l')).Sound := by
  refine h.shrink ?_ ?_ (fun _ => .inl rfl)
  · intro k
    show ((leases.put l').get? k).map _ = (leases.get? k).map _
    rw [get?_put]
    split
    · next hk =>
      obtain rfl : key l = k := hkey ▸ hk
      simp [hl, hres]
    · rfl
  · rintro k ⟨x, hx, hxlive⟩
    rw [get?_put] at hx
    split at hx
    · next hk =>
      obtain rfl : key l = k := hkey ▸ hk
      obtain rfl : l' = x := by simpa [hl] using hx
      exact ⟨l, hl, hlive hxlive⟩
    · exact ⟨x, hx, hxlive⟩

/-- A resource that points at nothing may be added. -/
theorem sound_addResource (h : (leasePool holder resource live devices leases).Sound)
    {f : Nat → δ} {hf : ∀ k, key (f k) = k} (hnone : holder (f devices.next) = none) :
    (leasePool holder resource live (devices.add f hf) leases).Sound := by
  refine h.shrink (fun _ => rfl) (fun _ hl => hl) (fun k => .inl ?_)
  show ((devices.add f hf).get? k).bind _ = (devices.get? k).bind _
  rw [get?_add]
  split
  · next hk => simp [← hk, hnone]
  · rfl

/-- A resource no lease was taken on may be erased. -/
theorem sound_eraseResource (h : (leasePool holder resource live devices leases).Sound) {k : Nat}
    (hunused : ∀ l ∈ leases.rows, resource l ≠ k) :
    (leasePool holder resource live (devices.erase k) leases).Sound := by
  refine h.shrink (fun _ => rfl) (fun _ hl => hl) (fun d => ?_)
  show ((devices.erase k).get? d).bind _ = (devices.get? d).bind _ ∨ _
  rw [get?_erase]
  by_cases hk : k = d
  · subst hk
    refine .inr ⟨by simp [leasePool, get?_erase], fun l hl _ => ?_⟩
    have hres : (leases.get? l).map resource = some k := h.owned hl
    obtain ⟨x, hx, hxk⟩ := Option.map_eq_some_iff.mp hres
    exact hunused x (mem_of_get? hx) hxk
  · exact .inl (by rw [if_neg hk])

/-- A resource that points at no live lease may be given to a new one. -/
theorem sound_grant (h : (leasePool holder resource live devices leases).Sound) {d d' : δ}
    {f : Nat → ι} {hf : ∀ k, key (f k) = k} (hd : devices.get? (key d) = some d)
    (hfree : Free holder live leases d) (hkey : key d' = key d)
    (hptr : holder d' = some leases.next) (hres : resource (f leases.next) = key d) :
    (leasePool holder resource live (devices.put d') (leases.add f hf)).Sound := by
  refine h.grant (l := leases.next) (d := key d) (by simp [leasePool]) ?_ ?_ ?_ ?_
  · intro l hl
    rw [leasePool_holder hd] at hl
    exact leasePool_free hfree hl
  · funext k
    show ((leases.add f hf).get? k).map _ = _
    rw [get?_add]
    by_cases hk : leases.next = k
    · subst hk
      simp [hres]
    · rw [if_neg hk, Function.update_of_ne (Ne.symm hk)]
      rfl
  · rintro k ⟨x, hx, hlive⟩
    rw [get?_add] at hx
    split at hx
    · next hk => exact .inl hk.symm
    · exact .inr ⟨x, hx, hlive⟩
  · funext k
    show ((devices.put d').get? k).bind _ = _
    by_cases hk : key d = k
    · subst hk
      rw [get?_put_self hd hkey]
      simp [hptr]
    · rw [get?_put_of_ne (by simpa [hkey] using hk), Function.update_of_ne (Ne.symm hk)]
      rfl

end Table

end QaPlatform
