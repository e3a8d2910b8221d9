import P0ker.Lib.Async
import P0ker.Lib.DocStore
import P0ker.Lib.Utf8

/-!
# The backend: Cloud Firestore and Firebase Auth

What the pages ask of the two services, and how a call is evaluated. A call is evaluated in one
step at the moment `Backend.serve` runs; whether it is accepted or rejected (no network, a rule, a
weak password) is left open and resolved by an `Outcome`.

* a query returns exactly the documents that lie directly under its collection path and match at
  the moment it is evaluated;
* `setData` replaces the document at its path, `add` stores under a fresh id;
* `createUser` gives an unused uid, and rejects an e-mail that already has an account;
* a rejected call changes nothing.
-/

namespace P0ker

/-! ## Documents -/

/-- A stored field. -/
inductive Value where
  | null
  | str (s : String)
  | int (n : Nat)
  deriving DecidableEq

/-- What a Dart `String`, possibly null, is stored as. -/
def Value.ofString : Option String → Value
  | some s => .str s
  | none => .null

theorem Value.ofString_inj {a b : Option String} :
    Value.ofString a = Value.ofString b ↔ a = b := by
  cases a <;> cases b <;> simp [Value.ofString]

/-- What a Dart `int`, possibly null, is stored as. -/
def Value.ofInt : Option Nat → Value
  | some n => .int n
  | none => .null

theorem Value.ofInt_inj {a b : Option Nat} : Value.ofInt a = Value.ofInt b ↔ a = b := by
  cases a <;> cases b <;> simp [Value.ofInt]

/-- A document: its fields, in the order of the Dart map literal that wrote it. -/
abbrev Doc := List (String × Value)

/-- `document[name]`, null when the field is missing. -/
def Doc.field (d : Doc) (name : String) : Value :=
  (d.lookup name).getD .null

/-- `document[name]` read into a `String`. -/
def Doc.string (d : Doc) (name : String) : Option String :=
  match d.field name with
  | .str s => some s
  | _ => none

/-- `document[name]` read into an `int`. -/
def Doc.int (d : Doc) (name : String) : Option Nat :=
  match d.field name with
  | .int n => some n
  | _ => none

abbrev Path := List String

abbrev Db := DocStore String Doc

/-- `"$s"`: Dart interpolates a null as the four letters `null`. -/
def interp : Option String → String
  | some s => s
  | none => "null"

/-- `"$n"` of an `int`. -/
def interpInt : Option Nat → String
  | some n => Nat.repr n
  | none => "null"

theorem isDigit_of_mem_repr {n : Nat} {c : Char} (h : c ∈ (Nat.repr n).toList) :
    c.isDigit = true := by
  rw [Nat.toList_repr] at h
  exact Nat.isDigit_of_mem_toDigits (by decide) (by decide) h

theorem repr_ne {n : Nat} {s : String} {c : Char} (hc : c ∈ s.toList) (h : c.isDigit = false) :
    Nat.repr n ≠ s := by
  rintro rfl
  rw [isDigit_of_mem_repr hc] at h
  cases h

/-- An id is read back from its path segment: no digits spell `null`. -/
theorem interpInt_inj {a b : Option Nat} : interpInt a = interpInt b ↔ a = b := by
  constructor
  · intro h
    cases a with
    | none =>
        cases b with
        | none => rfl
        | some n => exact absurd h.symm (repr_ne (c := 'n') (by decide) (by decide))
    | some m =>
        cases b with
        | none => exact absurd h (repr_ne (c := 'n') (by decide) (by decide))
        | some n =>
            have hdigits : Nat.toDigits 10 m = Nat.toDigits 10 n := by
              rw [← Nat.toList_repr, ← Nat.toList_repr]
              exact congrArg String.toList h
            have hmn := congrArg (Nat.ofDigitChars 10 · 0) hdigits
            simp only [Nat.ofDigitChars_toDigits (b := 10) (by decide) (by decide)] at hmn
            rw [hmn]
  · rintro rfl
    rfl

/-- `collection(coll).where(name, isEqualTo: v).getDocuments()`, for a `v` that is not null. -/
def Db.whereEq (db : Db) (coll : Path) (name : String) (v : Value) : List (String × Doc) :=
  (DocStore.documents db coll).filter fun e => e.2.field name = v

theorem Db.mem_whereEq {db : Db} {coll : Path} {name : String} {v : Value} {id : String} {d : Doc} :
    (id, d) ∈ db.whereEq coll name v ↔
      DocStore.get db (coll ++ [id]) = some d ∧ d.field name = v := by
  rw [Db.whereEq, List.mem_filter, DocStore.mem_documents]
  simp

theorem Db.whereEq_eq_nil {db : Db} {coll : Path} {name : String} {v : Value} :
    db.whereEq coll name v = [] ↔
      ∀ id d, DocStore.get db (coll ++ [id]) = some d → d.field name ≠ v := by
  rw [List.eq_nil_iff_forall_not_mem]
  constructor
  · intro h id d hd hv
    exact h (id, d) (Db.mem_whereEq.mpr ⟨hd, hv⟩)
  · rintro h ⟨id, d⟩ hmem
    obtain ⟨hd, hv⟩ := Db.mem_whereEq.mp hmem
    exact h id d hd hv

/-- `collection(coll).where(name, isGreaterThan: bound)`, for a text `bound`: the documents whose
field is a text that comes after it. Texts are compared by their UTF-8 bytes. -/
def Db.whereGreater (db : Db) (coll : Path) (name bound : String) : List (String × Doc) :=
  (DocStore.documents db coll).filter fun e =>
    (e.2.string name).any fun s => Utf8.bytes bound < Utf8.bytes s

theorem Db.mem_whereGreater {db : Db} {coll : Path} {name bound : String} {id : String} {d : Doc} :
    (id, d) ∈ db.whereGreater coll name bound ↔
      DocStore.get db (coll ++ [id]) = some d ∧ ∃ s, d.string name = some s ∧ bound < s := by
  rw [Db.whereGreater, List.mem_filter, DocStore.mem_documents, Option.any_eq_true]
  simp only [decide_eq_true_eq, Utf8.bytes_lt_iff]

/-! ## Calls and answers -/

inductive Request where
  | whereEq (coll : Path) (name : String) (v : Value)
  | get (doc : Path)
  | setData (doc : Path) (data : Doc)
  | add (coll : Path) (data : Doc)
  | currentUser
  | signIn (email password : Option String)
  | createUser (email password : Option String)
  deriving DecidableEq

inductive Answer where
  | documents (ds : List (String × Doc))
  | snapshot (d : Option Doc)
  | done
  | user (uid : Option String)
  | uid (u : String)
  | failed (e : String)
  deriving DecidableEq

/-- The uid a successful sign-in answers with. -/
def Answer.uid? : Answer → Option String
  | .uid u => some u
  | _ => none

/-- What the backend leaves open: an accepted call may need a fresh name (a uid, a document id), a
rejected one carries an error text. -/
inductive Outcome where
  | accept (fresh : String)
  | reject (e : String)
  deriving DecidableEq

/-- A call a page issues: the request, and the page's own name `κ` for the code that runs on its
answer. -/
structure Call (κ : Type) where
  cont : κ
  req : Request
  deriving DecidableEq

structure Account where
  password : String
  uid : String
  deriving DecidableEq

/-- The state of the backend: the documents, the accounts by e-mail, and the user signed in on each
device. -/
structure Backend (ι : Type) where
  db : Db
  accounts : AList fun _ : String => Account
  session : ι → Option String

variable {ι κ : Type} [DecidableEq ι]

namespace Backend

/-- No documents, no accounts, nobody signed in. -/
def empty (ι : Type) : Backend ι := ⟨∅, ∅, fun _ => none⟩

def uids (b : Backend ι) : List String :=
  b.accounts.entries.map (·.2.uid)

/-- Evaluate a request of device `i`; `none` when the outcome is impossible. -/
def serve (b : Backend ι) (i : ι) : Request → Outcome → Option (Backend ι × Answer)
  | _, .reject e => some (b, .failed e)
  | .whereEq coll name v, .accept _ => some (b, .documents (b.db.whereEq coll name v))
  | .get doc, .accept _ => some (b, .snapshot (DocStore.get b.db doc))
  | .setData doc data, .accept _ => some ({ b with db := DocStore.setData b.db doc data }, .done)
  | .add coll data, .accept id =>
      if DocStore.get b.db (coll ++ [id]) = none then
        some ({ b with db := DocStore.setData b.db (coll ++ [id]) data }, .done)
      else none
  | .currentUser, .accept _ => some (b, .user (b.session i))
  | .signIn (some email) (some password), .accept _ =>
      match b.accounts.lookup email with
      | some a =>
          if a.password = password then
            some ({ b with session := Function.update b.session i (some a.uid) }, .uid a.uid)
          else none
      | none => none
  | .createUser (some email) (some password), .accept uid =>
      if email ∉ b.accounts ∧ uid ∉ b.uids then
        some ({ b with
          accounts := b.accounts.insert email ⟨password, uid⟩
          session := Function.update b.session i (some uid) }, .uid uid)
      else none
  | .signIn _ _, .accept _ => none
  | .createUser _ _, .accept _ => none

end Backend

/-- The backend as the service of a system of pages. -/
def firebase (ι κ : Type) [DecidableEq ι] :
    Async.Service ι (Backend ι) (Call κ) Outcome Answer where
  serve b i call o := b.serve i call.req o

@[simp] theorem firebase_serve (b : Backend ι) (i : ι) (call : Call κ) (o : Outcome) :
    (firebase ι κ).serve b i call o = b.serve i call.req o := rfl

/-- Pages in the state `s₀`, still to be opened over any backend, nothing in flight. -/
def Opening {σ : Type} (s₀ : σ) (c : Async.Config ι σ (Backend ι) (Call κ) Answer) : Prop :=
  ∃ b, c = Async.Config.start (fun _ => s₀) b []

/-! ## What one evaluation can do -/

/-- `Served b i r b' a`: evaluating the request `r` of device `i` in `b` can lead to `b'` and the
answer `a`. -/
inductive Served (b : Backend ι) (i : ι) : Request → Backend ι → Answer → Prop
  | rejected (r : Request) (e : String) : Served b i r b (.failed e)
  | found (coll : Path) (name : String) (v : Value) :
      Served b i (.whereEq coll name v) b (.documents (b.db.whereEq coll name v))
  | got (doc : Path) : Served b i (.get doc) b (.snapshot (DocStore.get b.db doc))
  | wrote (doc : Path) (data : Doc) :
      Served b i (.setData doc data) { b with db := DocStore.setData b.db doc data } .done
  | added (coll : Path) (data : Doc) (id : String) :
      DocStore.get b.db (coll ++ [id]) = none →
      Served b i (.add coll data)
        { b with db := DocStore.setData b.db (coll ++ [id]) data } .done
  | user : Served b i .currentUser b (.user (b.session i))
  | signedIn (email password : String) (a : Account) :
      b.accounts.lookup email = some a → a.password = password →
      Served b i (.signIn (some email) (some password))
        { b with session := Function.update b.session i (some a.uid) } (.uid a.uid)
  | created (email password uid : String) : email ∉ b.accounts → uid ∉ b.uids →
      Served b i (.createUser (some email) (some password))
        { b with
          accounts := b.accounts.insert email ⟨password, uid⟩
          session := Function.update b.session i (some uid) } (.uid uid)

section Serve

variable {b b' : Backend ι} {i : ι} {r : Request} {o : Outcome} {a : Answer}

theorem Backend.served_of_serve (h : b.serve i r o = some (b', a)) : Served b i r b' a := by
  cases o with
  | reject e =>
      obtain ⟨rfl, rfl⟩ := Prod.mk.inj (Option.some.inj h)
      exact .rejected r e
  | accept fresh =>
      cases r with
      | whereEq coll name v =>
          obtain ⟨rfl, rfl⟩ := Prod.mk.inj (Option.some.inj h)
          exact .found coll name v
      | get doc =>
          obtain ⟨rfl, rfl⟩ := Prod.mk.inj (Option.some.inj h)
          exact .got doc
      | setData doc data =>
          obtain ⟨rfl, rfl⟩ := Prod.mk.inj (Option.some.inj h)
          exact .wrote doc data
      | currentUser =>
          obtain ⟨rfl, rfl⟩ := Prod.mk.inj (Option.some.inj h)
          exact .user
      | add coll data =>
          simp only [Backend.serve] at h
          split at h
          · next hnone =>
              obtain ⟨rfl, rfl⟩ := Prod.mk.inj (Option.some.inj h)
              exact .added coll data fresh hnone
          · cases h
      | signIn email password =>
          rcases email with - | email <;> rcases password with - | password <;>
            simp only [Backend.serve, reduceCtorEq] at h
          split at h
          · next acc hacc =>
              split at h
              · next hp =>
                  obtain ⟨rfl, rfl⟩ := Prod.mk.inj (Option.some.inj h)
                  exact .signedIn email password acc hacc hp
              · cases h
          · cases h
      | createUser email password =>
          rcases email with - | email <;> rcases password with - | password <;>
            simp only [Backend.serve, reduceCtorEq] at h
          split at h
          · next hf =>
              obtain ⟨rfl, rfl⟩ := Prod.mk.inj (Option.some.inj h)
              exact .created email password fresh hf.1 hf.2
          · cases h

/-- The documents are written by `setData` and `add` only. -/
def Request.Writes : Request → Prop
  | .setData _ _ => True
  | .add _ _ => True
  | _ => False

instance : ∀ r : Request, Decidable r.Writes
  | .setData _ _ | .add _ _ => .isTrue trivial
  | .whereEq _ _ _ | .get _ | .currentUser | .signIn _ _ | .createUser _ _ => .isFalse id

/-- The frame of the documents: any other request leaves all of them. -/
theorem Backend.serve_db (hw : ¬ r.Writes) (h : b.serve i r o = some (b', a)) : b'.db = b.db := by
  cases Backend.served_of_serve h with
  | wrote | added => exact absurd trivial hw
  | rejected | found | got | user | signedIn | created => rfl

theorem Backend.serve_whereEq {coll : Path} {name : String} {v : Value}
    (h : b.serve i (.whereEq coll name v) o = some (b', a)) :
    b' = b ∧ (a = .documents (b.db.whereEq coll name v) ∨ ∃ e, a = .failed e) := by
  cases Backend.served_of_serve h with
  | rejected _ e => exact ⟨rfl, Or.inr ⟨e, rfl⟩⟩
  | found => exact ⟨rfl, Or.inl rfl⟩

theorem Backend.serve_setData {doc : Path} {data : Doc}
    (h : b.serve i (.setData doc data) o = some (b', a)) :
    (b' = { b with db := DocStore.setData b.db doc data } ∧ a = .done) ∨
      (b' = b ∧ ∃ e, a = .failed e) := by
  cases Backend.served_of_serve h with
  | rejected _ e => exact Or.inr ⟨rfl, e, rfl⟩
  | wrote => exact Or.inl ⟨rfl, rfl⟩

/-- The answer to a `createUser` is the new uid or a failure. -/
theorem Backend.serve_createUser {email password : Option String}
    (h : b.serve i (.createUser email password) o = some (b', a)) :
    (∃ uid, a = .uid uid) ∨ ∃ e, a = .failed e := by
  cases Backend.served_of_serve h with
  | rejected _ e => exact Or.inr ⟨e, rfl⟩
  | created _ _ uid => exact Or.inl ⟨uid, rfl⟩

/-- A user who is signed in stays signed in. -/
theorem Backend.serve_session_ne_none (h : b.serve i r o = some (b', a)) {j : ι}
    (hj : b.session j ≠ none) : b'.session j ≠ none := by
  cases Backend.served_of_serve h with
  | rejected | found | got | wrote | added | user => exact hj
  | signedIn | created =>
      simp only [Function.update_apply]
      split
      · nofun
      · exact hj

/-- An answer with a uid means that its owner is now signed in. -/
theorem Backend.serve_uid {uid : String} (h : b.serve i r o = some (b', .uid uid)) :
    b'.session i ≠ none := by
  cases Backend.served_of_serve h with
  | signedIn | created => simp

/-- A lookup answers with the user of the session at the moment it is evaluated. -/
theorem Backend.serve_user {u : Option String} (h : b.serve i r o = some (b', .user u)) :
    u = b.session i := by
  cases Backend.served_of_serve h with
  | user => rfl

theorem Backend.serve_user_req {u : Option String} (h : b.serve i r o = some (b', .user u)) :
    r = .currentUser := by
  cases Backend.served_of_serve h with
  | user => rfl

end Serve

end P0ker
