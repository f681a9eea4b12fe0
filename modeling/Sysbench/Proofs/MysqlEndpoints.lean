/-
Endpoints are handed out in turn.

The positions count: after `n` connections the port is number `n` and the host number
`n / P`, each counted round and round, and with sockets the position is at the socket that
was taken last.  Nobody but the holder of the mutex moves them, so it is enough to say what
they are at each statement of the holder (`PosOk`); a thread in front of the mutex finds
them complete.  The head of a list comes up only between two statements, when the counting
starts again.
-/
import Sysbench.Lib.Mutex
import Sysbench.Lib.Schedule
import Sysbench.Model.MysqlEndpoints

namespace Sysbench.Endpoints

open List Function Ring CompareConnect

/-- The items of the three lists. -/
structure EndpointLists (A : Type) where
  hosts : List A
  ports : List A
  sockets : List A
  hosts_pos : 0 < hosts.length
  ports_pos : 0 < ports.length

variable {A T : Type} {mem : ValueMem A} {l : Links A} {args : EndpointArgs A} {pos : Positions A}
  {t : T} {q : ConnectPhase} {k : ℕ}

/-- The lists of the driver have these items. -/
structure HasLists (l : Links A) (args : EndpointArgs A) (ls : EndpointLists A) : Prop where
  hosts : IsRing l args.hosts ls.hosts
  ports : IsRing l args.ports ls.ports
  sockets : IsRing l args.sockets ls.sockets

/-- The items are in values and the heads are not. -/
structure HasValues (mem : ValueMem A) (args : EndpointArgs A) (ls : EndpointLists A) : Prop where
  items : ∀ a ∈ ls.hosts ++ ls.ports ++ ls.sockets, (mem.data a).isSome = true
  heads : ∀ a ∈ [args.hosts, args.ports, args.sockets], mem.data a = none

/-- The items that are read for an endpoint. -/
def Endpoint.items : Endpoint A → List A
  | .hostPort host port => [host, port]
  | .socket item => [item]

namespace EndpointLists

variable (ls : EndpointLists A)

def hostAt (k : ℕ) : A := cycle ls.hosts ls.hosts_pos (k / ls.ports.length)

def portAt (k : ℕ) : A := cycle ls.ports ls.ports_pos k

/-- The endpoint of connection `k`. -/
def endpointAt (k : ℕ) : Endpoint A :=
  if hs : 0 < ls.sockets.length then .socket (cycle ls.sockets hs k)
  else .hostPort (ls.hostAt k) (ls.portAt k)

/-- Where the position in the sockets is after `n` connections: at the last one taken. -/
def socketBefore (args : EndpointArgs A) (hs : 0 < ls.sockets.length) : ℕ → A
  | 0 => args.sockets
  | k + 1 => cycle ls.sockets hs k

end EndpointLists

variable {ls : EndpointLists A}

theorem endpointAt_of_sockets (hs : 0 < ls.sockets.length) (k : ℕ) :
    ls.endpointAt k = .socket (cycle ls.sockets hs k) := dif_pos hs

theorem endpointAt_of_no_sockets (hs : ls.sockets = []) (k : ℕ) :
    ls.endpointAt k = .hostPort (ls.hostAt k) (ls.portAt k) := by
  apply dif_neg
  simp [hs]

/-- Port number `k` is the last one of the list. -/
def LastPort (ls : EndpointLists A) (k : ℕ) : Prop := k % ls.ports.length + 1 = ls.ports.length

/-- The positions of a driver that has made `n` connections. -/
def Complete (args : EndpointArgs A) (ls : EndpointLists A) (n : ℕ) (pos : Positions A) : Prop :=
  (ls.sockets = [] → pos.hostsPos = ls.hostAt n ∧ pos.portsPos = ls.portAt n) ∧
    ∀ hs : 0 < ls.sockets.length, pos.socketsPos = ls.socketBefore args hs n

/-- The positions when the holder of the mutex is about to execute `q`, with `n` endpoints
taken. -/
def PosOk (l : Links A) (args : EndpointArgs A) (ls : EndpointLists A) (n : ℕ)
    (pos : Positions A) : ConnectPhase → Prop
  | .outside | .lock | .choose | .unlock => Complete args ls n pos
  | .takePort => ls.sockets = [] ∧ Complete args ls n pos
  | .nextPort => ls.sockets = [] ∧ ∃ k, n = k + 1 ∧
      pos.hostsPos = ls.hostAt k ∧ pos.portsPos = ls.portAt k
  | .nextHost => ls.sockets = [] ∧ ∃ k, n = k + 1 ∧
      pos.hostsPos = ls.hostAt k ∧ pos.portsPos = l.next (ls.portAt k)
  | .firstHost => ls.sockets = [] ∧ ∃ k, n = k + 1 ∧ LastPort ls k ∧
      pos.hostsPos = l.next (ls.hostAt k) ∧ pos.portsPos = args.ports
  | .firstPort => ls.sockets = [] ∧ ∃ k, n = k + 1 ∧ LastPort ls k ∧
      pos.hostsPos = ls.hostAt (k + 1) ∧ pos.portsPos = args.ports
  | .nextSocket => 0 < ls.sockets.length ∧ Complete args ls n pos
  | .firstSocket => ∃ hs : 0 < ls.sockets.length,
      pos.socketsPos = l.next (ls.socketBefore args hs n)
  | .takeSocket => ∃ hs : 0 < ls.sockets.length, pos.socketsPos = cycle ls.sockets hs n

namespace ConnectPhase

def holding : ConnectPhase → Bool
  | .outside | .lock => false
  | _ => true

/-- In the critical section, with the endpoint not taken yet -/
def before : ConnectPhase → Bool
  | .choose | .takePort | .nextSocket | .firstSocket | .takeSocket => true
  | _ => false

end ConnectPhase

namespace ConnectState

variable {s : ConnectState A T}

/-- The statement the holder of the mutex is at; without a holder the positions are complete,
as they are outside. -/
def stage (s : ConnectState A T) : ConnectPhase :=
  match s.mutex with
  | none => .outside
  | some t => s.phase t

/-- Who has the mutex and no endpoint yet -/
def pending (s : ConnectState A T) : List T :=
  match s.mutex with
  | none => []
  | some t => if (s.phase t).before then [t] else []

structure Inv (l : Links A) (args : EndpointArgs A) (ls : EndpointLists A)
    (s : ConnectState A T) : Prop where
  held : Mutex.Held ConnectPhase.holding s.phase s.mutex
  order : s.locked = s.given.map Prod.fst ++ s.pending
  given : ∀ k e, s.given[k]? = some e → e.2 = ls.endpointAt k
  pos : PosOk l args ls s.given.length s.pos s.stage

theorem Inv.mutex_eq (h : Inv l args ls s) (ht : (s.phase t).holding = true) :
    s.mutex = some t := (h.held t).mp ht

theorem Inv.posOk (h : Inv l args ls s) (hq : s.phase t = q)
    (hhold : q.holding = true) : PosOk l args ls s.given.length s.pos q := by
  subst hq
  have hpos := h.pos
  rwa [stage, h.mutex_eq hhold] at hpos

theorem inv_start [DecidableEq A] (h : HasLists l args ls)
    (hinit : mysqlDrvInit l args = some pos) : Inv l args ls (start pos : ConnectState A T) := by
  have hfirst : ∀ {head : A} {items : List A} (hring : IsRing l head items)
      (hne : 0 < items.length), l.next head = cycle items hne 0 := by
    intro head items hring hne
    rw [hring.next_head hne]
    simp [cycle]
  unfold mysqlDrvInit at hinit
  split at hinit
  · cases hinit
  · split at hinit
    · cases hinit
    · cases hinit
      constructor
      case held =>
        intro t
        constructor <;> intro ht <;> cases ht
      case order => rfl
      case given => simp [start]
      case pos =>
        refine ⟨fun _ => ⟨?_, hfirst h.ports ls.ports_pos⟩, fun _ => rfl⟩
        simp only [start, length_nil, EndpointLists.hostAt, Nat.zero_div]
        exact hfirst h.hosts ls.hosts_pos

variable [DecidableEq T]

/-- The holder of the mutex goes on to another statement and may move the positions. -/
theorem Inv.move (h : Inv l args ls s) (hq : s.phase t = q)
    (q' : ConnectPhase) (pos : Positions A) (hhold : q.holding = true)
    (hhold' : q'.holding = true) (hbefore : q'.before = q.before)
    (hpos : PosOk l args ls s.given.length pos q') :
    Inv l args ls { s.goto t q' with pos := pos } := by
  have hmutex : s.mutex = some t := h.mutex_eq (by rw [hq]; exact hhold)
  constructor
  case held => exact h.held.keep t (by rw [hq, hhold, hhold'])
  case order =>
    have horder := h.order
    simp only [pending, hmutex, hq] at horder
    simp only [goto, pending, hmutex, update_self, hbefore]
    exact horder
  case given => exact h.given
  case pos =>
    simp only [goto, stage, hmutex, update_self]
    exact hpos

/-- The holder of the mutex takes the endpoint whose turn it is. -/
theorem Inv.take (h : Inv l args ls s) (hq : s.phase t = q)
    (q' : ConnectPhase) (hhold : q.holding = true) (hhold' : q'.holding = true)
    (hbefore : q.before = true) (hafter : q'.before = false) {e : Endpoint A}
    (he : e = ls.endpointAt s.given.length)
    (hpos : PosOk l args ls (s.given.length + 1) s.pos q') :
    Inv l args ls { s.goto t q' with given := s.given ++ [(t, e)] } := by
  have hmutex : s.mutex = some t := h.mutex_eq (by rw [hq]; exact hhold)
  constructor
  case held => exact h.held.keep t (by rw [hq, hhold, hhold'])
  case order =>
    have horder := h.order
    simp only [pending, hmutex, hq, hbefore, if_true] at horder
    simp only [goto, pending, hmutex, update_self, hafter, map_append,
      map_singleton, Bool.false_eq_true, if_false, append_nil]
    exact horder
  case given =>
    intro k e' hk
    -- The entry is an old one or the new one.
    have hlt : k < s.given.length + 1 := by
      have hbound := (List.getElem?_eq_some_iff.mp hk).1
      simpa [goto] using hbound
    rcases Nat.lt_succ_iff_lt_or_eq.mp hlt with hold | rfl
    · exact h.given k e' ((getElem?_append_left hold).symm.trans hk)
    · have hnew : (s.given ++ [(t, e)])[s.given.length]? = some (t, e) := by simp
      have heq : e' = (t, e) := Option.some.inj (hk.symm.trans hnew)
      rw [heq]
      exact he
  case pos =>
    simp only [goto, stage, hmutex, update_self, length_append,
      length_singleton]
    exact hpos

theorem Inv.lock (h : Inv l args ls s) (t : T) (hfree : s.mutex = none) :
    Inv l args ls { s.goto t .choose with mutex := some t, locked := s.locked ++ [t] } := by
  constructor
  case held => exact h.held.take t hfree rfl
  case order =>
    have horder := h.order
    simp only [pending, hfree, append_nil] at horder
    simp [goto, pending, horder, ConnectPhase.before]
  case given => exact h.given
  case pos =>
    have hpos := h.pos
    simp only [stage, hfree] at hpos
    simp only [goto, stage, update_self]
    exact hpos

theorem Inv.unlock (h : Inv l args ls s) (hq : s.phase t = .unlock) :
    Inv l args ls { s.goto t .outside with mutex := none } := by
  have hholding : (s.phase t).holding = true := by rw [hq]; rfl
  constructor
  case held => exact h.held.give t hholding rfl
  case order =>
    have horder := h.order
    simp only [pending, h.mutex_eq hholding, hq] at horder
    simpa [goto, pending, ConnectPhase.before] using horder
  case given => exact h.given
  case pos =>
    have hpos : Complete args ls s.given.length s.pos := h.posOk hq rfl
    exact hpos

theorem Inv.enter (h : Inv l args ls s) (hq : s.phase t = .outside) :
    Inv l args ls (s.goto t .lock) := by
  have hother : ∀ p, s.mutex = some p → p ≠ t := by
    rintro p hp rfl
    have hholding := (h.held p).mpr hp
    rw [hq] at hholding
    cases hholding
  -- The holder is another thread, so nothing that is said about it changes.
  have hstage : (s.goto t .lock).stage = s.stage := by
    unfold stage
    cases hm : s.mutex with
    | none => simp [goto, hm]
    | some p => simp [goto, hm, update_of_ne (hother p hm)]
  have hpending : (s.goto t .lock).pending = s.pending := by
    unfold pending
    cases hm : s.mutex with
    | none => simp [goto, hm]
    | some p => simp [goto, hm, update_of_ne (hother p hm)]
  constructor
  case held => exact h.held.keep t (by rw [hq]; rfl)
  case order =>
    rw [hpending]
    exact h.order
  case given => exact h.given
  case pos =>
    rw [hstage]
    exact h.pos

variable [DecidableEq A]

end ConnectState

/-! ### What the connections get -/

theorem endpointAt_items (k : ℕ) :
    ∀ a ∈ (ls.endpointAt k).items, a ∈ ls.hosts ++ ls.ports ++ ls.sockets := by
  intro a ha
  rcases Nat.eq_zero_or_pos ls.sockets.length with hnone | hs
  · rw [endpointAt_of_no_sockets (length_eq_zero_iff.mp hnone)] at ha
    simp only [Endpoint.items, mem_cons, not_mem_nil, or_false] at ha
    rcases ha with rfl | rfl
    · exact mem_append_left _ (mem_append_left _ (get_mem _ _))
    · exact mem_append_left _ (mem_append_right _ (get_mem _ _))
  · rw [endpointAt_of_sockets hs] at ha
    simp only [Endpoint.items, mem_singleton] at ha
    subst ha
    exact mem_append_right _ (get_mem _ _)

theorem connFields_ok (atoi : Bytes → UInt32) {e : Endpoint A}
    (h : ∀ a ∈ e.items, (mem.data a).isSome = true) : ∃ f, connFields atoi mem e = .ok f := by
  have hread : ∀ a ∈ e.items, ∃ d, listEntry mem a = .ok d := by
    intro a ha
    obtain ⟨d, hd⟩ := Option.isSome_iff_exists.mp (h a ha)
    exact ⟨d, by simp [listEntry, hd]⟩
  cases e with
  | hostPort host port =>
    obtain ⟨dh, hhost⟩ := hread host (by simp [Endpoint.items])
    obtain ⟨dp, hport⟩ := hread port (by simp [Endpoint.items])
    exact ⟨⟨dh, atoi dp, none⟩, by simp [connFields, hhost, hport, Bind.bind, Except.bind,
      Pure.pure, Except.pure]⟩
  | socket item =>
    obtain ⟨ds, hsocket⟩ := hread item (by simp [Endpoint.items])
    exact ⟨⟨"localhost".toUTF8.toList, 0, some ds⟩, by simp [connFields, hsocket, Bind.bind,
      Except.bind, Pure.pure, Except.pure]⟩

/-- The connections made so far have had their endpoints in turn. -/
structure InTurn (atoi : Bytes → UInt32) (mem : ValueMem A) (args : EndpointArgs A)
    (ls : EndpointLists A) (s : ConnectState A T) : Prop where
  /-- Connection `k` is the one of the thread that was the `k`-th to get the mutex. -/
  order : s.given.map Prod.fst <+: s.locked
  hostPort : ls.sockets = [] → ∀ k e, s.given[k]? = some e → ∃ host port,
    e.2 = .hostPort host port ∧ ls.hosts[k / ls.ports.length % ls.hosts.length]? = some host ∧
      ls.ports[k % ls.ports.length]? = some port
  pairs : ls.sockets = [] → ∀ first, first + ls.hosts.length * ls.ports.length ≤ s.given.length →
    ∀ host ∈ ls.hosts, ∀ port ∈ ls.ports,
      ∃! k, (first ≤ k ∧ k < first + ls.hosts.length * ls.ports.length) ∧
        s.given[k]?.map Prod.snd = some (.hostPort host port)
  socket : ls.sockets ≠ [] → ∀ k e, s.given[k]? = some e → ∃ item,
    e.2 = .socket item ∧ ls.sockets[k % ls.sockets.length]? = some item
  /-- No head is taken for an entry, and every entry can be read. -/
  entries : ∀ e ∈ s.given, (∀ a ∈ e.2.items, a ∉ [args.hosts, args.ports, args.sockets]) ∧
    ∃ f, connFields atoi mem e.2 = .ok f

theorem getElem?_cycle {items : List A} (hne : 0 < items.length) (k : ℕ) :
    items[k % items.length]? = some (cycle items hne k) :=
  getElem?_eq_getElem _

/-- Which connections get host `i` and port `j`. -/
theorem endpointAt_eq_iff (hl : HasLists l args ls) (hnone : ls.sockets = []) {i j : ℕ}
    (hi : i < ls.hosts.length) (hj : j < ls.ports.length) (k : ℕ) :
    ls.endpointAt k = .hostPort ls.hosts[i] ls.ports[j]
      ↔ k / ls.ports.length % ls.hosts.length = i ∧ k % ls.ports.length = j := by
  have hhosts := (nodup_cons.mp hl.hosts.nodup).2
  have hports := (nodup_cons.mp hl.ports.nodup).2
  rw [endpointAt_of_no_sockets hnone, Endpoint.hostPort.injEq]
  unfold EndpointLists.hostAt EndpointLists.portAt cycle
  rw [get_eq_getElem, get_eq_getElem, hhosts.getElem_inj_iff, hports.getElem_inj_iff]

namespace ConnectState

variable {s : ConnectState A T}

theorem Inv.given_map (h : Inv l args ls s) (hk : k < s.given.length) :
    s.given[k]?.map Prod.snd = some (ls.endpointAt k) := by
  rw [getElem?_eq_getElem hk, Option.map_some,
    h.given k _ (getElem?_eq_getElem hk)]

theorem Inv.inTurn (h : Inv mem.links args ls s) (atoi : Bytes → UInt32)
    (hl : HasLists mem.links args ls) (hv : HasValues mem args ls) :
    InTurn atoi mem args ls s := by
  constructor
  case order =>
    rw [h.order]
    exact prefix_append _ _
  case hostPort =>
    intro hnone k e he
    refine ⟨ls.hostAt k, ls.portAt k, ?_, getElem?_cycle ls.hosts_pos _,
      getElem?_cycle ls.ports_pos k⟩
    rw [h.given k e he, endpointAt_of_no_sockets hnone]
  case pairs =>
    intro hnone first hfirst host hhost port hport
    obtain ⟨i, hi, rfl⟩ := getElem_of_mem hhost
    obtain ⟨j, hj, rfl⟩ := getElem_of_mem hport
    have hiff : ∀ k, k < first + ls.hosts.length * ls.ports.length →
        (s.given[k]?.map Prod.snd = some (.hostPort ls.hosts[i] ls.ports[j])
          ↔ k / ls.ports.length % ls.hosts.length = i ∧ k % ls.ports.length = j) := by
      intro k hk
      rw [h.given_map (by omega), Option.some.injEq]
      exact endpointAt_eq_iff hl hnone hi hj k
    obtain ⟨k, ⟨hk, hdigits⟩, hunique⟩ := RoundRobin.existsUnique_digits hi hj first
    refine ⟨k, ⟨hk, (hiff k hk.2).mpr hdigits⟩, ?_⟩
    rintro k' ⟨hk', hgiven⟩
    exact hunique k' ⟨hk', (hiff k' hk'.2).mp hgiven⟩
  case socket =>
    intro hsome k e he
    have hs := length_pos_iff.mpr hsome
    refine ⟨cycle ls.sockets hs k, ?_, getElem?_cycle hs k⟩
    rw [h.given k e he, endpointAt_of_sockets hs]
  case entries =>
    intro e he
    obtain ⟨k, hk⟩ := getElem?_of_mem he
    have hitems : ∀ a ∈ e.2.items, (mem.data a).isSome = true := by
      intro a ha
      rw [h.given k e hk] at ha
      exact hv.items a (endpointAt_items k a ha)
    refine ⟨fun a ha hhead => ?_, connFields_ok atoi hitems⟩
    have hsome := hitems a ha
    rw [hv.heads a hhead] at hsome
    cases hsome

end ConnectState

end Sysbench.Endpoints
