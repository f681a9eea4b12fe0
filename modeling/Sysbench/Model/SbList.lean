/-
The intrusive lists of `sb_list.h`.

A macro is a function on the pointers of all items, which makes its assignments in their order.
The body of a loop is an argument: that of `SB_LIST_FOR_EACH` leaves the pointers alone, and
that of `SB_LIST_FOR_EACH_SAFE` deletes items, which ones may depend on all items visited so
far.  A loop that has not come back to the head when its fuel runs out has no result.
-/
import Sysbench.Lib.Ring

namespace Sysbench.SbList

open Ring

variable {A : Type} [DecidableEq A]

def setNext (l : Links A) (a b : A) : Links A := { l with next := Function.update l.next a b }

def setPrev (l : Links A) (a b : A) : Links A := { l with prev := Function.update l.prev a b }

def sbListInit (l : Links A) (head : A) : Links A :=
  l.init head

def sbListAdd (l : Links A) (item head : A) : Links A :=
  let l := setNext l item (l.next head)
  let l := setPrev l item head
  let l := setNext l head item
  setPrev l (l.next item) item

def sbListAddTail (l : Links A) (item head : A) : Links A :=
  l.addTail item head

def sbListDelete (l : Links A) (oldItem : A) : Links A :=
  let l := setPrev l (l.next oldItem) (l.prev oldItem)
  setNext l (l.prev oldItem) (l.next oldItem)

def sbListReplace (l : Links A) (item oldItem : A) : Links A :=
  let l := setNext l item (l.next oldItem)
  let l := setPrev l item (l.prev oldItem)
  let l := setPrev l (l.next item) item
  setNext l (l.prev item) item

/-- The rounds of `SB_LIST_FOR_EACH` from `pos` on: the items visited -/
def forEachFrom (l : Links A) (head : A) : (fuel : ℕ) → (pos : A) → Option (List A)
  | 0, _ => none
  | fuel + 1, pos =>
    if pos = head then some [] else (forEachFrom l head fuel (l.next pos)).map (pos :: ·)

def sbListForEach (l : Links A) (head : A) (fuel : ℕ) : Option (List A) :=
  forEachFrom l head fuel (l.next head)

/-- The rounds of `SB_LIST_FOR_EACH_SAFE` from `pos` and `temp` on: the items visited, and the
pointers in the end.  `body` is given the items visited so far and says which ones it deletes. -/
def forEachSafeFrom (body : List A → List A) (head : A) :
    (fuel : ℕ) → (visited : List A) → (l : Links A) → (pos temp : A) → Option (List A × Links A)
  | 0, _, _, _, _ => none
  | fuel + 1, visited, l, pos, temp =>
    if pos = head then some (visited, l)
    else
      let visited := visited ++ [pos]
      let l := (body visited).foldl sbListDelete l
      forEachSafeFrom body head fuel visited l temp (l.next temp)

def sbListForEachSafe (body : List A → List A) (l : Links A) (head : A) (fuel : ℕ) :
    Option (List A × Links A) :=
  forEachSafeFrom body head fuel [] l (l.next head) (l.next (l.next head))

/-- An operation on the list with a given head -/
inductive ListOp (A : Type) where
  | init
  | add (item : A)
  | addTail (item : A)
  | delete (oldItem : A)
  | replace (item oldItem : A)

def ListOp.apply (head : A) (l : Links A) : ListOp A → Links A
  | .init => sbListInit l head
  | .add item => sbListAdd l item head
  | .addTail item => sbListAddTail l item head
  | .delete oldItem => sbListDelete l oldItem
  | .replace item oldItem => sbListReplace l item oldItem

end Sysbench.SbList
