import ChangeFeed.Gtid.GtidSet

/-!
# Log positions

A place in a server's replication log: the file, the offset of an event in it and the offset of the
event that follows. A position may also carry the transactions executed so far and the UUID of the
server that wrote the log.

**Operations.** `parse` and `render` for the text `file:position:next`; `fileNumber`; `compareTo`,
which position is further on.
-/

namespace ChangeFeed

/-- A place in a server's replication log. -/
structure LogPosition where
  file : String
  position : UInt64
  next : UInt64
  gtids : Option GtidSet
  server : Option String
  deriving DecidableEq, Inhabited

/-- Why a text is no log position. -/
inductive PositionFault where
  | shape (whole : String)
  | badNumeral (whole : String) (fault : Text.NumeralFault)
  deriving DecidableEq, Repr

/-- What is said about the fault. -/
def PositionFault.message : PositionFault → String
  | shape w => w
  | badNumeral w f => w ++ ", " ++ f.message

/-- The failure that a fault amounts to. -/
def PositionFault.toError (f : PositionFault) : Error := .positionText f.message

namespace LogPosition

/-- A position with the offsets alone. -/
def plain (file : String) (position next : UInt64) : LogPosition :=
  ⟨file, position, next, none, none⟩

/-- The same place, with the given transactions and the given server in its usual spelling. -/
def tagged (p : LogPosition) (gtids : Option GtidSet) (server : Option String) : LogPosition :=
  { p with gtids := gtids, server := server.map fun s => String.ofList (normalUuid s.toList) }

/-- The number after the last dot of a file name, or zero. -/
def fileNumberOf (file : String) : UInt64 :=
  match Text.cutLast? '.' file.toList with
  | some (_, suffix) =>
    match Text.readU64 suffix with
    | .ok n => n
    | .error _ => 0
  | none => 0

/-- The number of the position's file. -/
def fileNumber (p : LogPosition) : UInt64 :=
  fileNumberOf p.file

/-- Reads one of the two offsets. -/
def parseOffset (whole : String) (cs : List Char) : Except PositionFault UInt64 :=
  match Text.readU64 cs with
  | .ok n => .ok n
  | .error f => .error (.badNumeral whole f)

/-- Reads `file:position:next`. The file may hold colons itself. -/
def parse (s : String) : Except PositionFault LogPosition :=
  match Text.cutLast? ':' (Text.trimChars s.toList) with
  | none => .error (.shape s)
  | some (front, next) =>
    match Text.cutLast? ':' front with
    | none => .error (.shape s)
    | some (file, position) =>
      if file.isEmpty then .error (.shape s)
      else do
        let p ← parseOffset s position
        let n ← parseOffset s next
        return plain (String.ofList file) p n

/-- The text of a position, without transactions and server. -/
def render (p : LogPosition) : String :=
  String.ofList
    (p.file.toList ++ ':' :: Text.digits p.position.toNat ++ ':' :: Text.digits p.next.toNat)

/-- The order by file number, then by offset. -/
def compareOffsets (p q : LogPosition) : Ordering :=
  (compare p.fileNumber q.fileNumber).then (compare p.position q.position)

/-- Do both positions name the same server? -/
def sameServer (p q : LogPosition) : Bool :=
  match p.server, q.server with
  | some a, some b => a == b
  | _, _ => false

/-- Do both positions carry transactions, those of one within those of the other? -/
def sameProgress (p q : LogPosition) : Bool :=
  match p.gtids, q.gtids with
  | some a, some b => a.within b || b.within a
  | _, _ => false

/-- Which position is further on. Positions of one server go by file number and offset. Offsets of
different servers mean nothing to each other, so two positions count as equal when the transactions
of one contain those of the other; file number and offset decide the rest. -/
def compareTo (p q : LogPosition) : Ordering :=
  if p.sameServer q then p.compareOffsets q
  else if p.sameProgress q then .eq
  else p.compareOffsets q

/-- How far a position is in the log, by file number and offset in one number. -/
def rank (p : LogPosition) : Nat := p.fileNumber.toNat * UInt64.size + p.position.toNat

theorem compareOffsets_eq_lt_iff {p q : LogPosition} :
    p.compareOffsets q = .lt ↔ p.rank < q.rank := by
  have hp := p.position.toNat_lt_size
  have hq := q.position.toNat_lt_size
  unfold compareOffsets rank
  have hlt : ∀ a b : UInt64, compare a b = .lt ↔ a.toNat < b.toNat := fun _ _ =>
    compareOfLessAndEq_eq_lt
  rw [Ordering.then_eq_lt, hlt, hlt, Std.compare_eq_iff_eq, ← UInt64.toNat_inj]
  generalize p.fileNumber.toNat = a at *
  generalize q.fileNumber.toNat = b at *
  constructor
  · rintro (h | ⟨rfl, h⟩)
    · have hmul : (a + 1) * UInt64.size ≤ b * UInt64.size := Nat.mul_le_mul_right _ h
      rw [Nat.succ_mul] at hmul
      omega
    · omega
  · intro h
    rcases Nat.lt_trichotomy a b with hab | rfl | hab
    · exact Or.inl hab
    · exact Or.inr ⟨rfl, by omega⟩
    · have hmul : (b + 1) * UInt64.size ≤ a * UInt64.size := Nat.mul_le_mul_right _ hab
      rw [Nat.succ_mul] at hmul
      omega

/-- Transactions can only make positions equal. -/
theorem compareTo_eq_or (p q : LogPosition) :
    p.compareTo q = .eq ∨ p.compareTo q = p.compareOffsets q := by
  unfold compareTo
  split
  · exact Or.inr rfl
  · split
    · exact Or.inl rfl
    · exact Or.inr rfl

/-- Positions of one server go by file number and offset. -/
theorem compareTo_of_server {p q : LogPosition} {u : String} (hp : p.server = some u)
    (hq : q.server = some u) : p.compareTo q = p.compareOffsets q := by
  have hsame : p.sameServer q = true := by simp [sameServer, hp, hq]
  rw [compareTo, if_pos hsame]

/-- A position that is behind another one has the lower rank. -/
theorem rank_lt_of_compareTo {p q : LogPosition} (h : p.compareTo q = .lt) : p.rank < q.rank := by
  rcases compareTo_eq_or p q with he | he
  · cases he.symm.trans h
  · exact compareOffsets_eq_lt_iff.1 (he ▸ h)

end LogPosition

end ChangeFeed
