import RdfIndex.Identifier.Deriver

/-!
# Derivers and values side by side

A session holds derivers and values that remember, and any deriver may be asked about any value.  A
deriver that is made anew gets a generation of its own.  A copy of a deriver with another cache keeps
the generation; a copy that shares the cache is the same deriver, under the same number.  A copy of
a value takes the snapshot along.
-/

namespace RdfIndex

/-- What can be done in a session.  Derivers and values go by their numbers. -/
inductive SessionOp where
  /-- A deriver is made, with a cache of so many shards and such a capacity or without one. -/
  | newDeriver (factory : IdFactory) (cache : Option (Nat × Nat))
  /-- A deriver is copied, with a cache and counts of its own. -/
  | withCache (deriver shards capacity : Nat)
  | newValue (t : Term)
  /-- A value is copied with what it remembers. -/
  | cloneValue (value : Nat)
  | id (value deriver : Nat)
  | encodedForm (value deriver : Nat)
  /-- A value is given an identifier that was obtained elsewhere. -/
  | setId (value deriver : Nat) (id : Identifier)
  /-- An identifier is derived apart from any value. -/
  | derive (deriver : Nat) (e : Encoded)

/-- What an operation of a session gives. -/
inductive SessionAnswer where
  | nothing
  | id (id : Identifier)
  | form (e : Encoded)
deriving DecidableEq

/-- Derivers and values. -/
structure Session where
  /-- The generation of the deriver that is made next. -/
  next : Nat
  derivers : List Deriver
  values : List Remembered

namespace Session

/-- A session without derivers and values. -/
def start : Session := ⟨1, [], []⟩

def addDeriver (s : Session) (d : Deriver) : Session := { s with derivers := s.derivers ++ [d] }

def addValue (s : Session) (v : Remembered) : Session := { s with values := s.values ++ [v] }

/-- Does something with a value and a deriver.  Where one of them is missing nothing is done. -/
def use (s : Session) (value deriver : Nat)
    (f : Remembered → Deriver → Except InsideCharacter (SessionAnswer × Remembered × Deriver)) :
    Except InsideCharacter (SessionAnswer × Session) :=
  match s.values[value]?, s.derivers[deriver]? with
  | some v, some d => (f v d).map fun (a, v, d) =>
    (a, { s with values := s.values.set value v, derivers := s.derivers.set deriver d })
  | _, _ => .ok (.nothing, s)

/-- One operation. -/
def step (s : Session) : SessionOp → Except InsideCharacter (SessionAnswer × Session)
  | .newDeriver factory cache =>
    let d := Deriver.fresh factory s.next (cache.map fun size => .empty size.1 size.2)
    .ok (.nothing, { s.addDeriver d with next := s.next + 1 })
  | .withCache deriver shards capacity =>
    match s.derivers[deriver]? with
    | none => .ok (.nothing, s)
    | some d =>
      let copy := Deriver.fresh d.factory d.generation (some (.empty shards capacity))
      .ok (.nothing, s.addDeriver copy)
  | .newValue t => .ok (.nothing, s.addValue (.fresh t))
  | .cloneValue value =>
    match s.values[value]? with
    | none => .ok (.nothing, s)
    | some v => .ok (.nothing, s.addValue v)
  | .id value deriver =>
    s.use value deriver fun v d => (v.id d).map fun r => (.id r.1, r.2)
  | .encodedForm value deriver =>
    s.use value deriver fun v d => (v.encodedForm d).map fun r => (.form r.1, r.2)
  | .setId value deriver id =>
    s.use value deriver fun v d => (v.setId d id).map fun v => (.nothing, v, d)
  | .derive deriver e =>
    match s.derivers[deriver]? with
    | none => .ok (.nothing, s)
    | some d =>
      let (id, d) := d.derive e
      .ok (.id id, { s with derivers := s.derivers.set deriver d })

/-- The answers to some operations in turn, and the session after them. -/
def run (s : Session) : List SessionOp → Except InsideCharacter (List SessionAnswer × Session)
  | [] => .ok ([], s)
  | op :: ops => do
    let (answer, s) ← s.step op
    let (answers, s) ← s.run ops
    return (answer :: answers, s)

end Session

end RdfIndex
