/-
Which server the connections of the MySQL driver go to.

Hosts, ports and sockets are options with a list of values, and the driver keeps a position
in each list that all threads share.  `mysql_drv_connect` takes its endpoint from the
positions and moves them on, with a mutex held: through the ports first, to the next host
whenever they start again, or through the sockets if there are any.  A host or a port is
taken before its position moves on, a socket after it, for a list of sockets may be empty
and its position starts at the head.

A phase is the statement a thread is about to execute in the critical section.  Connecting
to the server comes after it and is left out, as are failing allocations and a dry run,
which takes no endpoint.  The lists are those of `Model/CompareConnect.lean`.
-/
import Sysbench.Model.CompareConnect

namespace Sysbench.Endpoints

open Ring CompareConnect

/-- The lists among the driver's `args`. -/
structure EndpointArgs (A : Type) where
  hosts : A
  ports : A
  sockets : A

structure Positions (A : Type) where
  hostsPos : A
  portsPos : A
  socketsPos : A

/-- The list items an endpoint is read from. -/
inductive Endpoint (A : Type) where
  | hostPort (host port : A)
  | socket (socket : A)
  deriving DecidableEq

variable {A T : Type}

/-- The fields of `db_mysql_conn_t` for the endpoint. -/
structure ConnFields where
  host : Bytes
  port : UInt32
  socket : Option Bytes
  deriving DecidableEq

/-- What the connection finds in the items; the fields that are not assigned come from `calloc`. -/
def connFields (atoi : Bytes → UInt32) (mem : ValueMem A) :
    Endpoint A → Except CompareConnect.Fault ConnFields
  | .hostPort host port => do
    let host ← listEntry mem host
    let port ← listEntry mem port
    pure ⟨host, atoi port, none⟩
  | .socket socket => do
    let socket ← listEntry mem socket
    pure ⟨"localhost".toUTF8.toList, 0, some socket⟩

variable [DecidableEq A]

/-- `mysql_drv_init`, as far as it sets the positions; it fails without hosts or ports.  (A wrong
SSL mode makes it fail later on.) -/
def mysqlDrvInit (l : Links A) (args : EndpointArgs A) : Option (Positions A) :=
  if l.next args.hosts = args.hosts then none
  else if l.next args.ports = args.ports then none
  else some ⟨l.next args.hosts, l.next args.ports, args.sockets⟩

inductive ConnectPhase where
  /-- Not between `pthread_mutex_lock` and `pthread_mutex_unlock` -/
  | outside
  /-- `pthread_mutex_lock` -/
  | lock
  /-- `SB_LIST_IS_EMPTY(args.sockets)` -/
  | choose
  /-- Host and port are assigned. -/
  | takePort
  /-- `ports_pos = SB_LIST_ITEM_NEXT(ports_pos)` -/
  | nextPort
  /-- `if (ports_pos == args.ports)`, and the next host -/
  | nextHost
  /-- `if (hosts_pos == args.hosts)`, and the first host -/
  | firstHost
  /-- `ports_pos = SB_LIST_ITEM_NEXT(ports_pos)`, from the head -/
  | firstPort
  /-- `sockets_pos = SB_LIST_ITEM_NEXT(sockets_pos)` -/
  | nextSocket
  /-- `if (sockets_pos == args.sockets)`, and the first socket -/
  | firstSocket
  /-- The socket is assigned. -/
  | takeSocket
  /-- `pthread_mutex_unlock` -/
  | unlock
  deriving DecidableEq

structure ConnectState (A T : Type) where
  pos : Positions A
  /-- Who holds `pos_mutex` -/
  mutex : Option T
  phase : T → ConnectPhase
  /-- Who has had the mutex so far, the first one first -/
  locked : List T
  /-- The endpoints taken so far, the first one first -/
  given : List (T × Endpoint A)

inductive ConnectEvent (T : Type) where
  /-- The thread calls `mysql_drv_connect`. -/
  | call (t : T)
  /-- The next step of a thread in it -/
  | step (t : T)

namespace ConnectState

def start (pos : Positions A) : ConnectState A T where
  pos := pos
  mutex := none
  phase := fun _ => .outside
  locked := []
  given := []

variable [DecidableEq T]

def goto (s : ConnectState A T) (t : T) (q : ConnectPhase) : ConnectState A T :=
  { s with phase := Function.update s.phase t q }

/-- The next step of a thread in `mysql_drv_connect`, which may have to wait for the mutex. -/
def stepThread (l : Links A) (args : EndpointArgs A) (s : ConnectState A T) (t : T) :
    ConnectState A T :=
  match s.phase t with
  | .outside => s
  | .lock =>
    if s.mutex = none then
      { s.goto t .choose with mutex := some t, locked := s.locked ++ [t] }
    else s
  | .choose => s.goto t (if l.next args.sockets = args.sockets then .takePort else .nextSocket)
  | .takePort =>
    { s.goto t .nextPort with
      given := s.given ++ [(t, .hostPort s.pos.hostsPos s.pos.portsPos)] }
  | .nextPort =>
    { s.goto t .nextHost with pos := { s.pos with portsPos := l.next s.pos.portsPos } }
  | .nextHost =>
    if s.pos.portsPos = args.ports then
      { s.goto t .firstHost with pos := { s.pos with hostsPos := l.next s.pos.hostsPos } }
    else s.goto t .unlock
  | .firstHost =>
    if s.pos.hostsPos = args.hosts then
      { s.goto t .firstPort with pos := { s.pos with hostsPos := l.next s.pos.hostsPos } }
    else s.goto t .firstPort
  | .firstPort =>
    { s.goto t .unlock with pos := { s.pos with portsPos := l.next s.pos.portsPos } }
  | .nextSocket =>
    { s.goto t .firstSocket with pos := { s.pos with socketsPos := l.next s.pos.socketsPos } }
  | .firstSocket =>
    if s.pos.socketsPos = args.sockets then
      { s.goto t .takeSocket with pos := { s.pos with socketsPos := l.next s.pos.socketsPos } }
    else s.goto t .takeSocket
  | .takeSocket =>
    { s.goto t .unlock with given := s.given ++ [(t, .socket s.pos.socketsPos)] }
  | .unlock => { s.goto t .outside with mutex := none }

/-- One event.  What cannot happen in `s` leaves it alone. -/
def step (l : Links A) (args : EndpointArgs A) (s : ConnectState A T) :
    ConnectEvent T → ConnectState A T
  | .call t => if s.phase t = .outside then s.goto t .lock else s
  | .step t => s.stepThread l args t

/-- Any interleaving of the calls, from the positions of `mysql_drv_init`. -/
def run (l : Links A) (args : EndpointArgs A) (pos : Positions A)
    (events : List (ConnectEvent T)) : ConnectState A T :=
  events.foldl (step l args) (start pos)

end ConnectState

end Sysbench.Endpoints
