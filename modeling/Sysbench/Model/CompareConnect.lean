/-
How the compare driver takes the parameters of its connections from its options.

Hosts, ports, sockets, users and passwords are options with a list of values.  The list is
circular: the option has the head, and each value is a `value_t` with a list item in it.
`SB_LIST_ENTRY` goes from an item to the `value_t` around it and cannot know whether there is
one.  `ValueMem.data` is what it finds: none for an item that is in no value, so for every
head.  (On the usual layout it is the `option_t` itself, and `data` its name.)

The option for the sockets belongs to the driver, so that its list always exists.  What the
client library reports for a connection is an argument of the call, by its index.  Failing
allocations are not modelled, and loops have fuel.
-/
import Sysbench.Lib.Ring
import Sysbench.Model.DbLayer

namespace Sysbench.CompareConnect

open Ring

inductive Fault where
  /-- an item is taken for a value and is none -/
  | notAnEntry
  | outOfBounds
  | outOfFuel
  deriving DecidableEq

variable {A : Type}

/-- The list items, and the `data` of the `value_t` around each of them. -/
structure ValueMem (A : Type) where
  links : Links A
  data : A → Option Bytes

/-- `add_value`, for the item of the `new_value()`. -/
def addValue [DecidableEq A] (mem : ValueMem A) (values newval : A) (data : Bytes) :
    ValueMem A where
  links := mem.links.addTail newval values
  data := Function.update mem.data newval (some data)

/-- The lists among the driver's `args`. -/
structure ListArgs (A : Type) where
  hosts : A
  ports : A
  sockets : A
  users : A
  passwords : A

/-! ### Lengths -/

/-- The `do` loop of `sb_list_size`. -/
def sbListSizeLoop [DecidableEq A] (l : Links A) (list : A) : ℕ → A → ℕ → Except Fault ℕ
  | 0, _, _ => .error .outOfFuel
  | fuel + 1, item, count =>
    if l.next item ≠ list then sbListSizeLoop l list fuel (l.next item) (count + 1)
    else .ok (count + 1)

def sbListSize [DecidableEq A] (fuel : ℕ) (l : Links A) (list : A) : Except Fault ℕ :=
  if l.next list = list then .ok 0 else sbListSizeLoop l list fuel (l.next list) 0

/-- `mysql_drv_init`, as far as it looks at the lists. -/
def mysqlDrvInit [DecidableEq A] (fuel : ℕ) (mem : ValueMem A) (args : ListArgs A) :
    Except Fault ℤ := do
  if mem.links.next args.hosts = args.hosts then return 1
  let hostCount ← sbListSize fuel mem.links args.hosts
  if mem.links.next args.ports = args.ports then return 1
  let userCount ← sbListSize fuel mem.links args.users
  if userCount = 0 then return 1
  else if hostCount ≠ userCount then return 1
  let passwdCount ← sbListSize fuel mem.links args.passwords
  if passwdCount = 0 then return 1
  else if hostCount ≠ passwdCount then return 1
  return 0

/-! ### Connecting -/

/-- What a `db_mysql_conn_t` is given from the lists. -/
structure ConnParams where
  host : Bytes
  port : ℤ
  socket : Option Bytes
  user : Bytes
  password : Bytes
  deriving DecidableEq

/-- Where `mysql_drv_connect` is in each of the lists. -/
structure Cursors (A : Type) where
  host : A
  port : A
  /-- NULL is none -/
  socket : Option A
  user : A
  password : A

/-- All cursors one item on. -/
def Cursors.next (l : Links A) (cur : Cursors A) : Cursors A where
  host := l.next cur.host
  port := l.next cur.port
  socket := cur.socket.map l.next
  user := l.next cur.user
  password := l.next cur.password

/-- `SB_LIST_ENTRY(item, value_t, listitem)->data`. -/
def listEntry (mem : ValueMem A) (item : A) : Except Fault Bytes :=
  match mem.data item with
  | none => .error .notAnEntry
  | some data => .ok data

/-- The parameters of the connection the cursors stand at. -/
def connParams (atoi : Bytes → ℤ) (mem : ValueMem A) (cur : Cursors A) :
    Except Fault ConnParams := do
  let host ← listEntry mem cur.host
  let port ← listEntry mem cur.port
  let socket ← match cur.socket with
    | none => .ok none
    | some item => (listEntry mem item).map some
  let user ← listEntry mem cur.user
  let password ← listEntry mem cur.password
  return { host := host, port := atoi port, socket := socket, user := user, password := password }

/-- What the client library reports when the connections are made. -/
structure Server where
  /-- `mysql_init` does not return NULL -/
  inits : ℕ → Bool
  /-- `mysql_drv_real_connect` succeeds -/
  connects : ℕ → Bool

/-- The `do` loop of `mysql_drv_connect`; `conns` are the connections that have been given their
parameters, so that `conn_index` is their number. -/
def connectLoop [DecidableEq A] (atoi : Bytes → ℤ) (server : Server) (mem : ValueMem A)
    (hosts : A) (connCount : ℕ) : ℕ → Cursors A → List ConnParams →
    Except Fault (List ConnParams × ℤ)
  | 0, _, _ => .error .outOfFuel
  | fuel + 1, cur, conns =>
    let index := conns.length
    if connCount ≤ index then .error .outOfBounds
    else do
      let params ← connParams atoi mem cur
      if server.inits index && server.connects index then
        let cur := cur.next mem.links
        if cur.host ≠ hosts then
          connectLoop atoi server mem hosts connCount fuel cur (conns ++ [params])
        else pure (conns ++ [params], 0)
      else pure (conns ++ [params], 1)

/-- `mysql_drv_connect`: the parameters of the connections, and what it returns. -/
def mysqlDrvConnect [DecidableEq A] (fuel : ℕ) (atoi : Bytes → ℤ) (server : Server)
    (dryRun : Bool) (mem : ValueMem A) (args : ListArgs A) :
    Except Fault (List ConnParams × ℤ) :=
  if dryRun then .ok ([], 0)
  else do
    let hostCount ← sbListSize fuel mem.links args.hosts
    connectLoop atoi server mem args.hosts hostCount fuel
      { host := mem.links.next args.hosts
        port := mem.links.next args.ports
        socket := some (mem.links.next args.sockets)
        user := mem.links.next args.users
        password := mem.links.next args.passwords } []

end Sysbench.CompareConnect
