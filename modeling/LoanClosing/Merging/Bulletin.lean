import LoanClosing.Text.Ascii

/-!
# Bulletins

What became of each job is announced to those who follow the bulletin at that time. The bulletin
keeps a limited number of announcements: one who reads too slowly loses the oldest and is told how
many.
-/

namespace LoanClosing

/-- The number of a job. Numbers count up from one without end; `JobId.word` is what a counter of
sixty-four bits has of them. -/
structure JobId where
  number : Nat
  deriving DecidableEq, Repr

/-- The number of a job in sixty-four bits, where the count begins anew after `2 ^ 64` numbers. -/
def JobId.word (id : JobId) : UInt64 := .ofNat id.number

/-- The text of a job number, with six digits or more. -/
def JobId.text (id : JobId) : String := "merge-" ++ String.ofList (Text.padded 6 id.number)

/-- What became of a job. -/
structure Announcement where
  job : JobId
  key : String
  /-- The output, or the text of the error. -/
  result : Except String ByteArray

/-- A bulletin. -/
structure Bulletin where
  /-- How many announcements are kept. -/
  capacity : Nat
  /-- All announcements, oldest first. -/
  announcements : List Announcement
  /-- How many announcements each follower has read or lost. -/
  followers : List Nat

namespace Bulletin

/-- The number of announcements kept unless another one is asked for. -/
def defaultCapacity : Nat := 1024

/-- An empty bulletin. The number of announcements kept is rounded up to a power of two. -/
def ofCapacity (capacity : Nat) : Bulletin := ⟨capacity.nextPowerOfTwo, [], []⟩

/-- Announces something. -/
def announce (bulletin : Bulletin) (announcement : Announcement) : Bulletin :=
  { bulletin with announcements := bulletin.announcements ++ [announcement] }

/-- Adds a follower, who sees what is announced from now on. -/
def follow (bulletin : Bulletin) : Bulletin :=
  { bulletin with followers := bulletin.followers ++ [bulletin.announcements.length] }

/-- The number of followers. -/
def followerCount (bulletin : Bulletin) : Nat := bulletin.followers.length

/-- What one who has read or lost a number of announcements has lost since, and what is left. -/
def unread (bulletin : Bulletin) (seen : Nat) : Nat × List Announcement :=
  let fresh := bulletin.announcements.drop seen
  let lost := fresh.length - bulletin.capacity
  (lost, fresh.drop lost)

/-- Reads all that a follower has not read: how many announcements were lost, and the others. -/
def read (bulletin : Bulletin) (follower : Nat) : Bulletin × Nat × List Announcement :=
  let seen := bulletin.followers.getD follower bulletin.announcements.length
  ({ bulletin with followers := bulletin.followers.set follower bulletin.announcements.length },
    bulletin.unread seen)

end Bulletin

end LoanClosing
