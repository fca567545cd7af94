/-
**The changes of a group's state.**

The engine tells the application what a commit or a convergence pass changed: the members and admins
that came and went, the name, the avatar and the retention of messages.

* `GroupStateChange` — the changes;
* `adminChanges`, `memberChanges` — the differences between two admin sets and two member sets;
* `profileChanges`, `messageRetentionChanges` — those of the presentation of a group.
-/

import Darkmatter.Convergence

namespace Darkmatter

inductive GroupStateChange
  | memberAdded (member : Bytes)
  | memberRemoved (member : Bytes)
  | memberLeft (member : Bytes)
  | adminAdded (member : Bytes)
  | adminRemoved (member : Bytes)
  | groupRenamed (name : String) (previousName : Option String)
  | groupAvatarChanged
  | messageRetentionChanged (oldSeconds newSeconds : Nat)
deriving DecidableEq, Repr

def adminChanges (before after : List Bytes) : List GroupStateChange :=
  (after.filter (· ∉ before)).map .adminAdded ++ (before.filter (· ∉ after)).map .adminRemoved

/-- The members that a pass added and removed. Who removed a member is not known here. -/
def memberChanges (before after : List Bytes) : List GroupStateChange :=
  (after.filter (· ∉ before)).map .memberAdded ++
    (before.dedup.filter (· ∉ after)).map .memberRemoved

/-- An empty name is no name to tell. -/
def previousDisplayName (name : String) : Option String := if name = "" then none else some name

def profileChanges (beforeName afterName : String) (beforeAvatar afterAvatar : List (Option Bytes)) :
    List GroupStateChange :=
  (if beforeName = afterName then [] else
    [.groupRenamed afterName (previousDisplayName beforeName)]) ++
  (if beforeAvatar = afterAvatar then [] else [.groupAvatarChanged])

/-- No retention and a retention of zero seconds are the same. -/
def messageRetentionChanges (before after : Option Nat) : List GroupStateChange :=
  if before.getD 0 = after.getD 0 then [] else
    [.messageRetentionChanged (before.getD 0) (after.getD 0)]

end Darkmatter
