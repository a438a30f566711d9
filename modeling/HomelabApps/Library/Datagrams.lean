import Mathlib.Data.List.Basic

/-! Packets that are sent from sockets of their own, over a network that may lose, delay, duplicate and
reorder what it carries, with a system that gives the port of a closed socket to a later one. -/

universe u v

namespace HomelabApps.Library.Datagrams

structure Socket (α : Type u) where
  port : Nat
  request : α
  isOpen : Bool

structure Datagram (μ : Type v) where
  packet : Nat
  msg : μ

/-- Every packet ever sent is a socket here; `requests` are the packets and `answers` the datagrams
that are still under way. -/
structure Net (α : Type u) (μ : Type v) where
  sockets : List (Socket α) := []
  requests : List Nat := []
  answers : List (Datagram μ) := []

variable {α : Type u} {μ : Type v}

def Net.free (s : Net α μ) (port : Nat) : Bool := s.sockets.all fun socket => !(socket.isOpen && socket.port = port)

def Net.send (s : Net α μ) (port : Nat) (request : α) : Net α μ :=
  { s with sockets := s.sockets ++ [⟨port, request, true⟩], requests := s.sockets.length :: s.requests }

def Net.close (s : Net α μ) (k : Nat) : Net α μ :=
  { s with sockets := s.sockets.modify k fun socket => { socket with isOpen := false } }

def Net.answer (s : Net α μ) (k : Nat) (msg : μ) : Option (Net α μ) :=
  if k ∈ s.requests then some { s with answers := ⟨k, msg⟩ :: s.answers } else none

def Net.loseRequest (s : Net α μ) (k : Nat) : Net α μ := { s with requests := s.requests.filter (· ≠ k) }

def Net.loseAnswer (s : Net α μ) (i : Nat) : Net α μ := { s with answers := s.answers.eraseIdx i }

def Net.port (s : Net α μ) (k : Nat) : Option Nat := s.sockets[k]?.map (·.port)

def Net.arrival (s : Net α μ) (i k : Nat) : Option (Datagram μ × Socket α) :=
  match s.answers[i]?, s.sockets[k]? with
  | some datagram, some socket =>
    if socket.isOpen && s.port datagram.packet = some socket.port then some (datagram, socket) else none
  | _, _ => none

def Net.Traffic (s : Net α μ) (k : Nat) : Prop := k ∈ s.requests ∨ ∃ datagram ∈ s.answers, datagram.packet = k

def Net.Quiet (s : Net α μ) (port : Nat) : Prop := ∀ k, s.port k = some port → ¬ s.Traffic k

/-- What is under way to or from the port of an open socket is of the socket's own packet. -/
structure Net.Apart (s : Net α μ) : Prop where
  known : ∀ k, s.Traffic k → k < s.sockets.length
  own : ∀ k socket, s.sockets[k]? = some socket → socket.isOpen = true →
    ∀ j, s.port j = some socket.port → s.Traffic j → j = k

variable {s : Net α μ} {port k i : Nat} {request : α} {msg : μ} {datagram : Datagram μ} {socket : Socket α}

theorem Net.free_iff : s.free port = true ↔ ∀ socket ∈ s.sockets, socket.isOpen = true → socket.port ≠ port := by
  rw [Net.free, List.all_eq_true]
  apply forall₂_congr
  intro socket _
  cases socket.isOpen with
  | false => simp
  | true => simp

theorem port_send : (s.send port request).port k = if k = s.sockets.length then some port else s.port k := by
  rw [Net.port, Net.port, Net.send]
  split
  next h => rw [h, List.getElem?_concat_length, Option.map_some]
  next h =>
    rcases Nat.lt_or_gt_of_ne h with h | h
    · rw [List.getElem?_append_left h]
    · rw [List.getElem?_eq_none (by rw [List.length_append, List.length_singleton]; omega),
        List.getElem?_eq_none (by omega)]

theorem port_of_send {other : Nat} (h : s.port k = some other) : (s.send port request).port k = some other := by
  rw [port_send]
  split
  next heq =>
    rw [heq, Net.port, List.getElem?_eq_none (Nat.le_refl _)] at h
    cases h
  · exact h

theorem getElem?_close : (s.close k).sockets[i]? =
    s.sockets[i]?.map fun socket => if k = i then { socket with isOpen := false } else socket := by
  rw [Net.close, List.getElem?_modify]
  split <;> simp

theorem port_close : (s.close k).port i = s.port i := by
  rw [Net.port, Net.port, getElem?_close, Option.map_map]
  congr 1
  funext socket
  rw [Function.comp_apply]
  split
  · rfl
  · rfl

instance : Decidable (s.Traffic k) := inferInstanceAs (Decidable (_ ∨ _))

instance : Decidable (s.Quiet port) :=
  decidable_of_iff (∀ k < s.sockets.length, s.port k = some port → ¬ s.Traffic k) <| by
    constructor
    · intro h k hport
      refine h k (Nat.lt_of_not_le fun hle => ?_) hport
      rw [Net.port, List.getElem?_eq_none hle] at hport
      cases hport
    · exact fun h k _ hport => h k hport

theorem traffic_send : (s.send port request).Traffic k ↔ k = s.sockets.length ∨ s.Traffic k := by
  simp only [Net.Traffic, Net.send, List.mem_cons, or_assoc]

theorem Net.Apart.send (h : s.Apart) (hfree : s.free port = true) (hquiet : s.Quiet port) :
    (s.send port request).Apart := by
  constructor
  · intro k hk
    rw [Net.send, List.length_append, List.length_singleton]
    rcases traffic_send.mp hk with rfl | hk
    · exact Nat.lt_succ_self _
    · exact Nat.lt_succ_of_lt (h.known k hk)
  · intro k socket hsocket hopen j hport hj
    rw [port_send] at hport
    rw [Net.send] at hsocket
    rcases Nat.lt_trichotomy k s.sockets.length with hk | rfl | hk
    · rw [List.getElem?_append_left hk] at hsocket
      have hother : socket.port ≠ port := Net.free_iff.mp hfree socket (List.mem_of_getElem? hsocket) hopen
      split at hport
      · exact absurd (Option.some.inj hport).symm hother
      next hne => exact h.own k socket hsocket hopen j hport ((traffic_send.mp hj).resolve_left hne)
    · rw [List.getElem?_concat_length] at hsocket
      cases hsocket
      split at hport
      next heq => exact heq
      next hne => exact absurd ((traffic_send.mp hj).resolve_left hne) (hquiet j hport)
    · rw [List.getElem?_eq_none (by rw [List.length_append, List.length_singleton]; omega)] at hsocket
      cases hsocket

theorem Net.Apart.close (h : s.Apart) : (s.close k).Apart := by
  constructor
  · intro j hj
    rw [Net.close, List.length_modify]
    exact h.known j hj
  · intro i socket hsocket hopen j hport hj
    rw [getElem?_close] at hsocket
    obtain ⟨before, hbefore, rfl⟩ := Option.map_eq_some_iff.mp hsocket
    rw [port_close] at hport
    split at hopen
    · cases hopen
    next hne =>
      rw [if_neg hne] at hport
      exact h.own i before hbefore hopen j hport hj

theorem Net.Apart.mono {t : Net α μ} (h : s.Apart) (hsockets : t.sockets = s.sockets)
    (htraffic : ∀ k, t.Traffic k → s.Traffic k) : t.Apart := by
  constructor
  · intro k hk
    rw [hsockets]
    exact h.known k (htraffic k hk)
  · intro k socket hsocket hopen j hport hj
    rw [Net.port, hsockets] at hport
    rw [hsockets] at hsocket
    exact h.own k socket hsocket hopen j hport (htraffic j hj)

theorem Net.Apart.answer {t : Net α μ} (h : s.Apart) (hstep : s.answer k msg = some t) : t.Apart := by
  rw [Net.answer] at hstep
  split at hstep
  next hk =>
    cases hstep
    refine h.mono rfl ?_
    rintro j (hj | ⟨datagram, hmem, rfl⟩)
    · exact .inl hj
    · rcases List.mem_cons.mp hmem with rfl | hmem
      · exact .inl hk
      · exact .inr ⟨datagram, hmem, rfl⟩
  · cases hstep

theorem Net.Apart.loseRequest (h : s.Apart) : (s.loseRequest k).Apart := by
  refine h.mono rfl ?_
  rintro j (hj | hj)
  · exact .inl (List.mem_filter.mp hj).1
  · exact .inr hj

theorem Net.Apart.loseAnswer (h : s.Apart) : (s.loseAnswer i).Apart := by
  refine h.mono rfl ?_
  rintro j (hj | ⟨datagram, hmem, rfl⟩)
  · exact .inl hj
  · exact .inr ⟨datagram, List.mem_of_mem_eraseIdx hmem, rfl⟩

theorem arrival_eq_some (h : s.arrival i k = some (datagram, socket)) : datagram ∈ s.answers ∧
    s.sockets[k]? = some socket ∧ socket.isOpen = true ∧ s.port datagram.packet = some socket.port := by
  rw [Net.arrival] at h
  split at h
  next hanswer hsocket =>
    split at h
    next hreaches =>
      cases h
      rw [Bool.and_eq_true, decide_eq_true_eq] at hreaches
      exact ⟨List.mem_of_getElem? hanswer, hsocket, hreaches.1, hreaches.2⟩
    · cases h
  · cases h

theorem Net.Apart.arrival (h : s.Apart) (harrival : s.arrival i k = some (datagram, socket)) :
    datagram.packet = k := by
  obtain ⟨hmem, hsocket, hopen, hport⟩ := arrival_eq_some harrival
  exact h.own k socket hsocket hopen datagram.packet hport (.inr ⟨datagram, hmem, rfl⟩)

end HomelabApps.Library.Datagrams
