import Mathlib.Data.List.Basic
import Mathlib.Data.List.Nodup
import Mathlib.Data.List.Pairwise

/-! Leases fenced by a version. A slot counts its versions; whoever takes a lease on
it gets a ticket with the version that the taking made, and gives the ticket back
with another version. A slot may be taken from a holder whose lease has run out.
Then a ticket that is not of the slot's version has been given back or has run out,
and no slot has two tickets that have not. -/

namespace QaPlatform.Fence

/-- What can be leased, with the version of its last lease. -/
structure Slot where
  version : Nat
  /-- When the lease runs out, if there is one. -/
  leaseUntil : Option Int

/-- A lease that was taken at some version of a slot. -/
structure Ticket where
  resource : Nat
  version : Nat
  expiresAt : Int
  returned : Bool

/-- The ticket is of the slot's version, and its lease is the slot's. -/
def Ticket.Current (t : Ticket) (s : Slot) : Prop :=
  t.version = s.version ∧ s.leaseUntil = some t.expiresAt ∧ t.returned = false

/-- The ticket is of an earlier version, and not of use any more at `seen`. -/
def Ticket.Past (t : Ticket) (s : Slot) (seen : Int) : Prop :=
  t.version < s.version ∧ (t.returned = true ∨ t.expiresAt ≤ seen)

/-- `seen` is the latest time at which a slot was taken from somebody. -/
structure Fenced (slots : Nat → Option Slot) (tickets : List Ticket) (seen : Int) : Prop where
  known : ∀ t ∈ tickets, ∃ s, slots t.resource = some s ∧ (t.Current s ∨ t.Past s seen)
  distinct : (tickets.map fun t => (t.resource, t.version)).Nodup

namespace Fenced

variable {slots slots' : Nat → Option Slot} {tickets : List Ticket} {seen : Int}

theorem nil : Fenced slots [] seen := ⟨by simp, by simp⟩

/-- A version of a slot is on one ticket only. -/
theorem eq_of_version (h : Fenced slots tickets seen) {p q : Nat} {t t' : Ticket}
    (ht : tickets[p]? = some t) (ht' : tickets[q]? = some t') (hres : t.resource = t'.resource)
    (hversion : t.version = t'.version) : p = q := by
  obtain ⟨hp, -⟩ := List.getElem?_eq_some_iff.mp ht
  refine (List.getElem?_inj (by simpa using hp) h.distinct).mp ?_
  rw [List.getElem?_map, List.getElem?_map, ht, ht', Option.map_some, Option.map_some, hres,
    hversion]

/-- Among the tickets of a slot at most one is out and has not expired. -/
theorem exclusive (h : Fenced slots tickets seen) {now : Int} (hnow : seen ≤ now) {p q : Nat}
    {t t' : Ticket} (ht : tickets[p]? = some t) (ht' : tickets[q]? = some t')
    (hres : t.resource = t'.resource) (hout : t.returned = false) (hout' : t'.returned = false)
    (hlive : now < t.expiresAt) (hlive' : now < t'.expiresAt) : p = q := by
  have hcurrent {t : Ticket} (ht : t ∈ tickets) (hout : t.returned = false)
      (hlive : now < t.expiresAt) : ∃ s, slots t.resource = some s ∧ t.version = s.version := by
    obtain ⟨s, hs, ⟨hversion, -⟩ | ⟨-, hreturned | hover⟩⟩ := h.known t ht
    · exact ⟨s, hs, hversion⟩
    · rw [hout] at hreturned
      simp at hreturned
    · omega
  obtain ⟨s, hs, hversion⟩ := hcurrent (List.mem_of_getElem? ht) hout hlive
  obtain ⟨s', hs', hversion'⟩ := hcurrent (List.mem_of_getElem? ht') hout' hlive'
  rw [hres, hs'] at hs
  obtain rfl := Option.some.inj hs
  exact h.eq_of_version ht ht' hres (hversion.trans hversion'.symm)

/-- New slots come. -/
theorem extend (h : Fenced slots tickets seen)
    (hslots : ∀ k s, slots k = some s → slots' k = some s) : Fenced slots' tickets seen where
  known t ht := by
    obtain ⟨s, hs, hstate⟩ := h.known t ht
    exact ⟨s, hslots _ s hs, hstate⟩
  distinct := h.distinct

/-- A slot that nobody has a valid lease on gets a later version. -/
theorem advance (h : Fenced slots tickets seen) {k : Nat} {s s' : Slot} (hs : slots k = some s)
    (hs' : slots' k = some s') (hothers : ∀ j, j ≠ k → slots' j = slots j)
    (hversion : s.version < s'.version) (hfree : ∀ e, s.leaseUntil = some e → e ≤ seen) :
    Fenced slots' tickets seen where
  known t ht := by
    obtain ⟨s₁, hs₁, hstate⟩ := h.known t ht
    by_cases hk : t.resource = k
    · rw [hk, hs] at hs₁
      obtain rfl := Option.some.inj hs₁
      refine ⟨s', by rw [hk, hs'], .inr ?_⟩
      rcases hstate with ⟨hcurrent, hlease, -⟩ | ⟨hpast, hover⟩
      · exact ⟨by omega, .inr (hfree _ hlease)⟩
      · exact ⟨by omega, hover⟩
    · exact ⟨s₁, by rw [hothers _ hk, hs₁], hstate⟩
  distinct := h.distinct

theorem version_le (h : Fenced slots tickets seen) {t : Ticket} (ht : t ∈ tickets) {s : Slot}
    (hs : slots t.resource = some s) : t.version ≤ s.version := by
  obtain ⟨s₁, hs₁, hstate⟩ := h.known t ht
  rw [hs] at hs₁
  obtain rfl := Option.some.inj hs₁
  rcases hstate with ⟨hcurrent, -⟩ | ⟨hpast, -⟩
  · omega
  · omega

/-- A slot is taken: the taker has a ticket of the new version. -/
theorem take (h : Fenced slots tickets seen) {k : Nat} {s s' : Slot} (hs : slots k = some s)
    (hs' : slots' k = some s') (hothers : ∀ j, j ≠ k → slots' j = slots j)
    (hversion : s.version < s'.version) (hfree : ∀ e, s.leaseUntil = some e → e ≤ seen)
    {expiresAt : Int} (hlease : s'.leaseUntil = some expiresAt) :
    Fenced slots' (tickets ++ [⟨k, s'.version, expiresAt, false⟩]) seen where
  known t ht := by
    rcases List.mem_append.mp ht with hold | hnew
    · exact (h.advance hs hs' hothers hversion hfree).known t hold
    · obtain rfl := List.mem_singleton.mp hnew
      exact ⟨s', hs', .inl ⟨rfl, hlease, rfl⟩⟩
  distinct := by
    rw [List.map_append, List.nodup_append]
    refine ⟨h.distinct, by simp, fun x hx x' hx' heq => ?_⟩
    obtain ⟨t, ht, rfl⟩ := List.mem_map.mp hx
    obtain rfl : x' = (k, s'.version) := by simpa using hx'
    obtain ⟨hres, hsame⟩ := Prod.mk.inj heq
    have hle := h.version_le ht (s := s) (by rw [hres, hs])
    omega

/-- The holder of the slot's version gives its ticket back. -/
theorem giveBack (h : Fenced slots tickets seen) {p : Nat} {t : Ticket}
    (ht : tickets[p]? = some t) {s s' : Slot} (hs : slots t.resource = some s)
    (hs' : slots' t.resource = some s') (hothers : ∀ j, j ≠ t.resource → slots' j = slots j)
    (hcurrent : t.version = s.version) (hversion : s.version < s'.version) :
    Fenced slots' (tickets.set p { t with returned := true }) seen where
  known t₁ ht₁ := by
    obtain ⟨hp, hget⟩ := List.getElem?_eq_some_iff.mp ht
    obtain ⟨q, hq, rfl⟩ := List.mem_iff_getElem.mp ht₁
    rw [List.length_set] at hq
    rw [List.getElem_set]
    by_cases hpq : p = q
    · rw [if_pos hpq]
      exact ⟨s', hs', .inr ⟨by show t.version < s'.version; omega, .inl rfl⟩⟩
    · rw [if_neg hpq]
      have hmem : tickets[q] ∈ tickets := List.getElem_mem hq
      obtain ⟨s₁, hs₁, hstate⟩ := h.known _ hmem
      by_cases hk : tickets[q].resource = t.resource
      · rw [hk, hs] at hs₁
        obtain rfl := Option.some.inj hs₁
        refine ⟨s', by rw [hk, hs'], .inr ?_⟩
        rcases hstate with ⟨hsame, -⟩ | ⟨hpast, hover⟩
        · have hq' : tickets[q]? = some tickets[q] := List.getElem?_eq_getElem hq
          exact absurd (h.eq_of_version ht hq' hk.symm (hcurrent.trans hsame.symm)) hpq
        · exact ⟨by omega, hover⟩
      · exact ⟨s₁, by rw [hothers _ hk, hs₁], hstate⟩
  distinct := by
    obtain ⟨hp, hget⟩ := List.getElem?_eq_some_iff.mp ht
    have hsame : (tickets.set p { t with returned := true }).map (fun t => (t.resource, t.version))
        = tickets.map fun t => (t.resource, t.version) := by
      have hp' : p < (tickets.map fun t => (t.resource, t.version)).length := by simpa using hp
      have hkey : (tickets.map fun t => (t.resource, t.version))[p] = (t.resource, t.version) := by
        rw [List.getElem_map, hget]
      rw [List.map_set]
      show (tickets.map _).set p (t.resource, t.version) = _
      rw [← hkey, List.set_getElem_self]
    rw [hsame]
    exact h.distinct

end Fenced

end QaPlatform.Fence
