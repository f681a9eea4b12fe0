/-
Which parameters the connections of the compare driver get.

`mysql_drv_connect` walks along five lists at once and stops where the hosts are at an end.
`mysql_drv_init` has made sure that there are as many users and passwords, but a list of
ports or sockets may be over before: the cursor is at its head then, and the head is taken
for a value.  So the lists must not be shorter than that of the hosts, and that is enough.

`ValueList` ties the memory to the values of an option, as `add_value` builds it.
A cursor in such a list has some of the values in front of it (`Reads`), and the loop is an
induction over the hosts that are left.
-/
import Sysbench.Lib.Runs
import Sysbench.Model.CompareConnect

namespace Sysbench.CompareConnect

open List Ring Runs

variable {A : Type} {mem : ValueMem A} {head p : A} {values : List Bytes}

/-! ### Lists of values -/

/-- The list at `head` has these values. -/
def ValueList (mem : ValueMem A) (head : A) (values : List Bytes) : Prop :=
  ∃ items, IsRing mem.links head items ∧ items.map mem.data = values.map some ∧
    mem.data head = none

/-- From `p` on there are these values and then the head. -/
def Reads (mem : ValueMem A) (head p : A) (values : List Bytes) : Prop :=
  ∃ items, Walk mem.links head p items ∧ items.map mem.data = values.map some ∧
    mem.data head = none

theorem ValueList.reads (h : ValueList mem head values) :
    Reads mem head (mem.links.next head) values := by
  obtain ⟨items, hring, hdata, hhead⟩ := h
  exact ⟨items, hring.walk, hdata, hhead⟩

theorem Reads.nil (h : Reads mem head p []) : p = head ∧ mem.data p = none := by
  obtain ⟨items, hwalk, hdata, hhead⟩ := h
  obtain rfl : items = [] := by simpa using hdata
  obtain rfl : p = head := hwalk
  exact ⟨rfl, hhead⟩

theorem Reads.cons {value : Bytes} (h : Reads mem head p (value :: values)) :
    mem.data p = some value ∧ Reads mem head (mem.links.next p) values := by
  obtain ⟨items, hwalk, hdata, hhead⟩ := h
  cases items with
  | nil => simp at hdata
  | cons x items =>
    rw [map_cons, map_cons, cons.injEq] at hdata
    refine ⟨?_, items, hwalk.next, hdata.2, hhead⟩
    rw [hwalk.1, hdata.1]

theorem Reads.eq_head_iff (h : Reads mem head p values) : p = head ↔ values = [] := by
  cases values with
  | nil => exact iff_of_true h.nil.1 rfl
  | cons value values =>
    refine iff_of_false (fun hc => ?_) (cons_ne_nil value values)
    have hdata := h.cons.1
    obtain ⟨items, -, -, hhead⟩ := h
    rw [hc, hhead] at hdata
    cases hdata

theorem Reads.listEntry_nil (h : Reads mem head p []) : listEntry mem p = .error .notAnEntry := by
  rw [listEntry, h.nil.2]

theorem Reads.listEntry_cons {value : Bytes} (h : Reads mem head p (value :: values)) :
    listEntry mem p = .ok value := by
  rw [listEntry, h.cons.1]

/-! ### Lengths -/

section Lengths

variable [DecidableEq A]

theorem sbListSizeLoop_eq (values : List Bytes) :
    ∀ {value : Bytes} {p : A} {fuel count : ℕ}, Reads mem head p (value :: values) →
      values.length < fuel →
      sbListSizeLoop mem.links head fuel p count = .ok (count + values.length + 1) := by
  induction values with
  | nil =>
    intro value p fuel count h hfuel
    obtain ⟨fuel, rfl⟩ := Nat.exists_eq_add_of_lt hfuel
    have hend : mem.links.next p = head := h.cons.2.nil.1
    simp [sbListSizeLoop, hend]
  | cons value' values ih =>
    intro value p fuel count h hfuel
    cases fuel with
    | zero => exact absurd hfuel (Nat.not_lt_zero _)
    | succ fuel =>
      have hrest := h.cons.2
      have hnext : mem.links.next p ≠ head := by
        rw [ne_eq, hrest.eq_head_iff]
        exact cons_ne_nil value' values
      rw [sbListSizeLoop, if_pos hnext, ih hrest (Nat.lt_of_succ_lt_succ hfuel),
        length_cons]
      congr 1
      omega

theorem sbListSize_eq {fuel : ℕ} (h : ValueList mem head values) (hfuel : values.length ≤ fuel) :
    sbListSize fuel mem.links head = .ok values.length := by
  have hreads := h.reads
  rw [sbListSize]
  cases values with
  | nil => rw [if_pos hreads.nil.1, length_nil]
  | cons value values =>
    rw [if_neg, sbListSizeLoop_eq values hreads hfuel, Nat.zero_add, length_cons]
    rw [hreads.eq_head_iff]
    exact cons_ne_nil value values

/-- The values of all five lists. -/
structure Values where
  hosts : List Bytes
  ports : List Bytes
  sockets : List Bytes
  users : List Bytes
  passwords : List Bytes

structure HasValues (mem : ValueMem A) (args : ListArgs A) (vs : Values) : Prop where
  hosts : ValueList mem args.hosts vs.hosts
  ports : ValueList mem args.ports vs.ports
  sockets : ValueList mem args.sockets vs.sockets
  users : ValueList mem args.users vs.users
  passwords : ValueList mem args.passwords vs.passwords

/-- Enough for all loops over the lists. -/
structure Values.Fuel (vs : Values) (fuel : ℕ) : Prop where
  hosts : vs.hosts.length ≤ fuel
  users : vs.users.length ≤ fuel
  passwords : vs.passwords.length ≤ fuel

variable {args : ListArgs A} {vs : Values} {fuel : ℕ}

/-- What `mysql_drv_init` accepts. -/
theorem mysqlDrvInit_eq_zero_iff (h : HasValues mem args vs) (hfuel : vs.Fuel fuel) :
    mysqlDrvInit fuel mem args = .ok 0 ↔
      vs.hosts ≠ [] ∧ vs.ports ≠ [] ∧ vs.users.length = vs.hosts.length ∧
        vs.passwords.length = vs.hosts.length := by
  rw [mysqlDrvInit, sbListSize_eq h.hosts hfuel.hosts, sbListSize_eq h.users hfuel.users,
    sbListSize_eq h.passwords hfuel.passwords]
  simp only [h.hosts.reads.eq_head_iff, h.ports.reads.eq_head_iff, length_eq_zero_iff, bind,
    Except.bind, pure, Except.pure]
  by_cases hhosts : vs.hosts = []
  · simp [hhosts]
  · have hempty : ∀ {l : List Bytes}, l.length = vs.hosts.length → l ≠ [] := by
      intro l hl hc
      rw [hc] at hl
      exact hhosts (length_eq_zero_iff.mp hl.symm)
    have hzero : ¬0 = vs.hosts.length := fun hc => hhosts (length_eq_zero_iff.mp hc.symm)
    by_cases hports : vs.ports = []
    · simp [hhosts, hports]
    · by_cases husers : vs.users.length = vs.hosts.length
      · by_cases hpasswords : vs.passwords.length = vs.hosts.length
        · simp [hhosts, hports, husers, hpasswords, hempty husers, hempty hpasswords]
        · by_cases hnil : vs.passwords = []
          · simp [hhosts, hports, husers, hempty husers, hnil, hzero]
          · simp [hhosts, hports, husers, hempty husers, hpasswords, hnil, Ne.symm hpasswords]
      · by_cases hnil : vs.users = []
        · simp [hhosts, hports, hnil, hzero]
        · simp [hhosts, hports, husers, hnil, Ne.symm husers]

end Lengths

/-! ### The loop -/

section Loop

variable {args : ListArgs A} {atoi : Bytes → ℤ} {server : Server}

/-- The cursors have these values in front of them. -/
structure Cursors.At (mem : ValueMem A) (args : ListArgs A) (cur : Cursors A) (vs : Values) :
    Prop where
  host : Reads mem args.hosts cur.host vs.hosts
  port : Reads mem args.ports cur.port vs.ports
  socket : ∃ item, cur.socket = some item ∧ Reads mem args.sockets item vs.sockets
  user : Reads mem args.users cur.user vs.users
  password : Reads mem args.passwords cur.password vs.passwords

variable {cur : Cursors A} {h s u w : Bytes} {hs ps ss us ws : List Bytes}

/-- Where every list has a value left, these are the parameters. -/
theorem Cursors.At.connParams_cons {p : Bytes}
    (hcur : cur.At mem args ⟨h :: hs, p :: ps, s :: ss, u :: us, w :: ws⟩) :
    connParams atoi mem cur = .ok ⟨h, atoi p, some s, u, w⟩ := by
  obtain ⟨item, hitem, hsocket⟩ := hcur.socket
  simp only [connParams, hitem, hcur.host.listEntry_cons, hcur.port.listEntry_cons,
    hsocket.listEntry_cons, hcur.user.listEntry_cons, hcur.password.listEntry_cons]
  rfl

theorem Cursors.At.next {p : Bytes}
    (hcur : cur.At mem args ⟨h :: hs, p :: ps, s :: ss, u :: us, w :: ws⟩) :
    (cur.next mem.links).At mem args ⟨hs, ps, ss, us, ws⟩ := by
  obtain ⟨item, hitem, hsocket⟩ := hcur.socket
  refine ⟨hcur.host.cons.2, hcur.port.cons.2, ⟨mem.links.next item, ?_, hsocket.cons.2⟩,
    hcur.user.cons.2, hcur.password.cons.2⟩
  rw [Cursors.next, hitem, Option.map_some]

/-- Where the ports or the sockets are over, a head is taken for a value. -/
theorem Cursors.At.connParams_error (hcur : cur.At mem args ⟨h :: hs, ps, ss, us, ws⟩)
    (hover : ps = [] ∨ ss = []) : connParams atoi mem cur = .error .notAnEntry := by
  obtain ⟨item, hitem, hsocket⟩ := hcur.socket
  cases ps with
  | nil =>
    simp only [connParams, hcur.host.listEntry_cons, hcur.port.listEntry_nil]
    rfl
  | cons p ps =>
    obtain rfl : ss = [] := hover.resolve_left (cons_ne_nil p ps)
    simp only [connParams, hitem, hcur.host.listEntry_cons, hcur.port.listEntry_cons,
      hsocket.listEntry_nil]
    rfl

/-- The first item of each list. -/
def Cursors.first (l : Links A) (args : ListArgs A) : Cursors A where
  host := l.next args.hosts
  port := l.next args.ports
  socket := some (l.next args.sockets)
  user := l.next args.users
  password := l.next args.passwords

variable {vs : Values}

theorem HasValues.at_first (h : HasValues mem args vs) :
    (Cursors.first mem.links args).At mem args vs :=
  ⟨h.hosts.reads, h.ports.reads, ⟨_, rfl, h.sockets.reads⟩, h.users.reads, h.passwords.reads⟩

/-- The connections that the lists describe, as far as all of them go. -/
def listed (atoi : Bytes → ℤ) :
    List Bytes → List Bytes → List Bytes → List Bytes → List Bytes → List ConnParams
  | h :: hs, p :: ps, s :: ss, u :: us, w :: ws =>
    { host := h, port := atoi p, socket := some s, user := u, password := w } ::
      listed atoi hs ps ss us ws
  | _, _, _, _, _ => []

variable [DecidableEq A]

variable {fuel : ℕ}

theorem connectLoop_cons {p : Bytes} {conns : List ConnParams} {count : ℕ}
    (hcur : cur.At mem args ⟨h :: hs, p :: ps, s :: ss, u :: us, w :: ws⟩)
    (hcount : conns.length < count) :
    connectLoop atoi server mem args.hosts count (fuel + 1) cur conns
      = if server.inits conns.length && server.connects conns.length then
          if hs = [] then .ok (conns ++ [⟨h, atoi p, some s, u, w⟩], 0)
          else connectLoop atoi server mem args.hosts count fuel (cur.next mem.links)
            (conns ++ [⟨h, atoi p, some s, u, w⟩])
        else .ok (conns ++ [⟨h, atoi p, some s, u, w⟩], 1) := by
  have hend : (cur.next mem.links).host = args.hosts ↔ hs = [] := hcur.next.host.eq_head_iff
  rw [connectLoop, if_neg (Nat.not_le_of_lt hcount), hcur.connParams_cons]
  simp only [bind, Except.bind, ne_eq, hend, ite_not]
  rfl

/-- While ports and sockets last, the loop gives each connection the values of its place, and
returns at the first that cannot be made. -/
theorem connectLoop_listed (hs : List Bytes) :
    ∀ {ps ss us ws : List Bytes} {cur : Cursors A} {conns : List ConnParams} {fuel count : ℕ},
      hs ≠ [] → cur.At mem args ⟨hs, ps, ss, us, ws⟩ → us.length = hs.length →
      ws.length = hs.length → hs.length ≤ ps.length → hs.length ≤ ss.length →
      hs.length ≤ fuel → count = conns.length + hs.length →
      ∃ made rc, connectLoop atoi server mem args.hosts count fuel cur conns
          = .ok (conns ++ made, rc) ∧ made <+: listed atoi hs ps ss us ws ∧
        (rc = 0 → made.length = hs.length) := by
  induction hs with
  | nil => exact fun hc => absurd rfl hc
  | cons h hs ih =>
    intro ps ss us ws cur conns fuel count _ hcur hus hws hps hss hfuel hcount
    obtain ⟨fuel, rfl⟩ := Nat.exists_eq_add_of_le' (Nat.lt_of_lt_of_le (Nat.succ_pos _) hfuel)
    obtain ⟨p, ps, rfl⟩ :=
      exists_cons_of_length_pos (Nat.lt_of_lt_of_le (Nat.succ_pos _) hps)
    obtain ⟨s, ss, rfl⟩ :=
      exists_cons_of_length_pos (Nat.lt_of_lt_of_le (Nat.succ_pos _) hss)
    obtain ⟨u, us, rfl⟩ := exists_cons_of_length_eq_add_one hus
    obtain ⟨w, ws, rfl⟩ := exists_cons_of_length_eq_add_one hws
    simp only [length_cons, Nat.add_le_add_iff_right, Nat.add_right_cancel_iff] at *
    rw [connectLoop_cons hcur (by omega)]
    have hone : ∀ rest, [⟨h, atoi p, some s, u, w⟩] <+: ConnParams.mk h (atoi p) (some s) u w ::
        rest := fun rest => prefix_append _ rest
    by_cases hmade : (server.inits conns.length && server.connects conns.length) = true
    · rw [if_pos hmade]
      by_cases hlast : hs = []
      · subst hlast
        exact ⟨_, 0, if_pos rfl, hone _, fun _ => rfl⟩
      · rw [if_neg hlast]
        have hfuel' : hs.length ≤ fuel := by omega
        have hcount' : count
            = (conns ++ [ConnParams.mk h (atoi p) (some s) u w]).length + hs.length := by
          rw [length_append, length_singleton]
          omega
        obtain ⟨made, rc, hloop, hprefix, hlen⟩ :=
          ih hlast hcur.next hus hws hps hss hfuel' hcount'
        refine ⟨_ :: made, rc, ?_, (prefix_cons_inj _).mpr hprefix, fun hrc => ?_⟩
        · rw [hloop, append_assoc]
          rfl
        · rw [length_cons, hlen hrc]
    · rw [if_neg hmade]
      exact ⟨_, 1, rfl, hone _, fun hc => absurd hc (by decide)⟩

/-- With every connection made, the loop comes to the end of the ports or sockets. -/
theorem connectLoop_notAnEntry (hmade : ∀ k, (server.inits k && server.connects k) = true)
    (hs : List Bytes) :
    ∀ {ps ss us ws : List Bytes} {cur : Cursors A} {conns : List ConnParams} {fuel count : ℕ},
      cur.At mem args ⟨hs, ps, ss, us, ws⟩ → us.length = hs.length →
      ws.length = hs.length → ¬(hs.length ≤ ps.length ∧ hs.length ≤ ss.length) →
      hs.length ≤ fuel → count = conns.length + hs.length →
      connectLoop atoi server mem args.hosts count fuel cur conns = .error .notAnEntry := by
  induction hs with
  | nil =>
    intro ps ss us ws cur conns fuel count _ _ _ hshort
    exact absurd ⟨Nat.zero_le _, Nat.zero_le _⟩ hshort
  | cons h hs ih =>
    intro ps ss us ws cur conns fuel count hcur hus hws hshort hfuel hcount
    obtain ⟨fuel, rfl⟩ := Nat.exists_eq_add_of_le' (Nat.lt_of_lt_of_le (Nat.succ_pos _) hfuel)
    by_cases hover : ps = [] ∨ ss = []
    · rw [connectLoop, if_neg (by omega), hcur.connParams_error hover]
      rfl
    · rw [not_or] at hover
      obtain ⟨p, ps, rfl⟩ := exists_cons_of_ne_nil hover.1
      obtain ⟨s, ss, rfl⟩ := exists_cons_of_ne_nil hover.2
      obtain ⟨u, us, rfl⟩ := exists_cons_of_length_eq_add_one hus
      obtain ⟨w, ws, rfl⟩ := exists_cons_of_length_eq_add_one hws
      simp only [length_cons, Nat.add_le_add_iff_right, Nat.add_right_cancel_iff] at *
      have hlast : hs ≠ [] := by
        rintro rfl
        exact hshort ⟨Nat.zero_le _, Nat.zero_le _⟩
      rw [connectLoop_cons hcur (by omega), if_pos (hmade _), if_neg hlast]
      refine ih hcur.next hus hws hshort (by omega) ?_
      rw [length_append, length_singleton]
      omega

/-! ### The call -/

/-- The connection has the host, user and password of its place, one of the ports, and one of the
sockets or none where there are none. -/
structure AsListed (atoi : Bytes → ℤ) (vs : Values) (i : ℕ) (params : ConnParams) : Prop where
  host : vs.hosts[i]? = some params.host
  user : vs.users[i]? = some params.user
  password : vs.passwords[i]? = some params.password
  port : ∃ port ∈ vs.ports, params.port = atoi port
  socket : (vs.sockets = [] ∧ params.socket = none) ∨
    ∃ socket ∈ vs.sockets, params.socket = some socket

theorem getElem?_listed {params : ConnParams} (hs ps ss us ws : List Bytes) {i : ℕ}
    (hi : (listed atoi hs ps ss us ws)[i]? = some params) :
    hs[i]? = some params.host ∧ us[i]? = some params.user ∧ ws[i]? = some params.password ∧
      (∃ port ∈ ps, params.port = atoi port) ∧ ∃ socket ∈ ss, params.socket = some socket := by
  fun_induction listed atoi hs ps ss us ws generalizing i with
  | case1 h hs p ps s ss u us w ws ih =>
    cases i with
    | zero =>
      obtain rfl := Option.some.inj hi
      exact ⟨rfl, rfl, rfl, ⟨p, mem_cons_self, rfl⟩, s, mem_cons_self, rfl⟩
    | succ i =>
      obtain ⟨hhost, huser, hpassword, ⟨q, hq, hport⟩, t, ht, hsocket⟩ := ih hi
      exact ⟨hhost, huser, hpassword, ⟨q, mem_cons_of_mem p hq, hport⟩,
        t, mem_cons_of_mem s ht, hsocket⟩
  | case2 => simp at hi

/-- Whatever the servers answer, the call returns, every connection that got parameters got those
of its place, and all have where it succeeds. -/
def ConnectsAsListed (fuel : ℕ) (atoi : Bytes → ℤ) (mem : ValueMem A) (args : ListArgs A)
    (vs : Values) : Prop :=
  ∀ server, ∃ conns rc, mysqlDrvConnect fuel atoi server false mem args = .ok (conns, rc) ∧
    (∀ i params, conns[i]? = some params → AsListed atoi vs i params) ∧
    (rc = 0 → conns.length = vs.hosts.length)

theorem mysqlDrvConnect_eq (h : HasValues mem args vs) (hfuel : vs.Fuel fuel) :
    mysqlDrvConnect fuel atoi server false mem args
      = connectLoop atoi server mem args.hosts vs.hosts.length fuel
          (Cursors.first mem.links args) [] := by
  rw [mysqlDrvConnect, sbListSize_eq h.hosts hfuel.hosts]
  rfl

/-- Where every connection can be made, a list that is too short is left behind its end. -/
theorem mysqlDrvConnect_notAnEntry (h : HasValues mem args vs) (hfuel : vs.Fuel fuel)
    (husers : vs.users.length = vs.hosts.length)
    (hpasswords : vs.passwords.length = vs.hosts.length)
    (hshort : ¬(vs.hosts.length ≤ vs.ports.length ∧ vs.hosts.length ≤ vs.sockets.length)) :
    mysqlDrvConnect fuel atoi ⟨fun _ => true, fun _ => true⟩ false mem args
      = .error .notAnEntry := by
  rw [mysqlDrvConnect_eq h hfuel]
  apply connectLoop_notAnEntry (fun _ => rfl) _ h.at_first husers hpasswords hshort hfuel.hosts
  rw [length_nil, Nat.zero_add]

/-- **The parameters of the connections.**  With lists that `mysql_drv_init` has accepted,
`mysql_drv_connect` gives every connection the parameters of its place if and only if there are
at least as many ports and as many sockets as hosts. -/
theorem connect_params_iff {vs : Values} {fuel : ℕ} (hvalues : HasValues mem args vs)
    (hfuel : vs.Fuel fuel) (haccepted : mysqlDrvInit fuel mem args = .ok 0) :
    ConnectsAsListed fuel atoi mem args vs ↔
      vs.hosts.length ≤ vs.ports.length ∧ vs.hosts.length ≤ vs.sockets.length := by
  obtain ⟨hhosts, -, husers, hpasswords⟩ := (mysqlDrvInit_eq_zero_iff hvalues hfuel).mp haccepted
  refine ⟨fun hconnects => ?_, fun ⟨hports, hsockets⟩ server => ?_⟩
  · by_contra hshort
    obtain ⟨conns, rc, h, -⟩ := hconnects ⟨fun _ => true, fun _ => true⟩
    rw [mysqlDrvConnect_notAnEntry hvalues hfuel husers hpasswords hshort] at h
    exact nomatch h
  · have hcount : vs.hosts.length = ([] : List ConnParams).length + vs.hosts.length := by simp
    obtain ⟨made, rc, hloop, hprefix, hlen⟩ := connectLoop_listed _ hhosts hvalues.at_first husers
      hpasswords hports hsockets hfuel.hosts hcount
    refine ⟨made, rc, (mysqlDrvConnect_eq hvalues hfuel).trans hloop, fun i params hi => ?_, hlen⟩
    obtain ⟨hlt, hget⟩ := List.getElem?_eq_some_iff.mp hi
    have hlisted := prefix_iff_getElem?.mp hprefix i hlt
    rw [hget] at hlisted
    obtain ⟨hhost, huser, hpassword, hport, hsocket⟩ := getElem?_listed _ _ _ _ _ hlisted
    exact ⟨hhost, huser, hpassword, hport, .inr hsocket⟩

end Loop

/-! ### The lists that the options make -/

inductive ListOption where
  | hosts
  | ports
  | sockets
  | users
  | passwords
  deriving DecidableEq

/-- The head in an option, and the items of the values added to it. -/
inductive Addr where
  | head (option : ListOption)
  | value (option : ListOption) (number : ℕ)
  deriving DecidableEq

def optionArgs : ListArgs Addr where
  hosts := .head .hosts
  ports := .head .ports
  sockets := .head .sockets
  users := .head .users
  passwords := .head .passwords

/-- The options before any value is added, each head after `SB_LIST_INIT`. -/
def noValues : ValueMem Addr where
  links := { next := id, prev := id }
  data := fun _ => none

/-- The loop of `set_option` over the tokens of a value. -/
def addValues (mem : ValueMem Addr) (option : ListOption) : ℕ → List Bytes → ValueMem Addr
  | _, [] => mem
  | number, token :: tokens =>
    addValues (addValue mem (.head option) (.value option number) token) option (number + 1)
      tokens

/-- The options with their values. -/
def optionMem (vs : Values) : ValueMem Addr :=
  let mem := addValues noValues .hosts 0 vs.hosts
  let mem := addValues mem .ports 0 vs.ports
  let mem := addValues mem .sockets 0 vs.sockets
  let mem := addValues mem .users 0 vs.users
  addValues mem .passwords 0 vs.passwords

/-- Two hosts with everything. -/
def twoHosts : Values where
  hosts := [[97], [98]]
  ports := [[49], [50]]
  sockets := [[115], [116]]
  users := [[117], [118]]
  passwords := [[120], [121]]

theorem hasValues_twoHosts : HasValues (optionMem twoHosts) optionArgs twoHosts := by
  constructor
  all_goals
    exact ⟨[.value _ 0, .value _ 1], ⟨by decide, ⟨rfl, rfl⟩, ⟨rfl, rfl⟩, rfl, rfl⟩, rfl, rfl⟩

theorem two_hosts_connect_as_listed :
    mysqlDrvInit 2 (optionMem twoHosts) optionArgs = .ok 0 ∧
    ConnectsAsListed 2 (fun _ => 3306) (optionMem twoHosts) optionArgs twoHosts := by
  have hvalues := hasValues_twoHosts
  have hfuel : twoHosts.Fuel 2 := by constructor <;> decide
  have haccepted := (mysqlDrvInit_eq_zero_iff hvalues hfuel).mpr (by decide)
  exact ⟨haccepted, (connect_params_iff hvalues hfuel haccepted).mpr (by decide)⟩

/-- One host and one port, and no socket, which is the default. -/
def noSocket : Values where
  hosts := [[97]]
  ports := [[49]]
  sockets := []
  users := [[117]]
  passwords := [[120]]

/-- Two hosts on the default port. -/
def onePort : Values := { twoHosts with ports := [[49]] }

theorem hasValues_noSocket : HasValues (optionMem noSocket) optionArgs noSocket := by
  constructor
  case sockets => exact ⟨[], ⟨by decide, rfl, rfl⟩, rfl, rfl⟩
  all_goals exact ⟨[.value _ 0], ⟨by decide, ⟨rfl, rfl⟩, rfl, rfl⟩, rfl, rfl⟩

theorem hasValues_onePort : HasValues (optionMem onePort) optionArgs onePort := by
  constructor
  case ports => exact ⟨[.value _ 0], ⟨by decide, ⟨rfl, rfl⟩, rfl, rfl⟩, rfl, rfl⟩
  all_goals
    exact ⟨[.value _ 0, .value _ 1], ⟨by decide, ⟨rfl, rfl⟩, ⟨rfl, rfl⟩, rfl, rfl⟩, rfl, rfl⟩

/-- Without sockets the first connection takes the head of their list for a value, with one port
the second takes that of the ports. -/
theorem short_lists_are_read_behind_their_end :
    (mysqlDrvInit 2 (optionMem noSocket) optionArgs = .ok 0 ∧
      ∀ atoi, mysqlDrvConnect 2 atoi ⟨fun _ => true, fun _ => true⟩ false (optionMem noSocket)
        optionArgs = .error .notAnEntry) ∧
    mysqlDrvInit 2 (optionMem onePort) optionArgs = .ok 0 ∧
      ∀ atoi, mysqlDrvConnect 2 atoi ⟨fun _ => true, fun _ => true⟩ false (optionMem onePort)
        optionArgs = .error .notAnEntry := by
  have hfuel : noSocket.Fuel 2 := by constructor <;> decide
  have hfuel' : onePort.Fuel 2 := by constructor <;> decide
  refine ⟨⟨?_, fun atoi => ?_⟩, ?_, fun atoi => ?_⟩
  · exact (mysqlDrvInit_eq_zero_iff hasValues_noSocket hfuel).mpr (by decide)
  · exact mysqlDrvConnect_notAnEntry hasValues_noSocket hfuel rfl rfl (by decide)
  · exact (mysqlDrvInit_eq_zero_iff hasValues_onePort hfuel').mpr (by decide)
  · exact mysqlDrvConnect_notAnEntry hasValues_onePort hfuel' rfl rfl (by decide)

end Sysbench.CompareConnect
