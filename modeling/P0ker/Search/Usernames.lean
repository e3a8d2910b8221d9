import P0ker.Registration.Profile
import P0ker.Pages.UserSearch
import P0ker.Writes

/-!
# Do registration and search mean the same name?

The Login form stores the trimmed lower-case form of what was typed. The search page asks for the
lower-case form of what was typed, without trimming it; and the form's validator looks at the text
before it is trimmed. `names_agree_iff` says which texts this tells apart: a search text with
whitespace at its ends never finds the name, and a text of nothing but whitespace is stored as the
empty name.
-/

namespace P0ker.Usernames

open Async Login Registration
open Dart (trim toLowerCase)
open UserSearch (fireSearch)

variable {ι : Type} [DecidableEq ι]

/-! ## A name that is left alone -/

/-- The step leaves the text in the name field of form `i` as it is. -/
def Unedited (i : ι) (c : LoginConfig ι) : LoginAction ι → Prop
  | .event j (.editUsername t) => j = i → t = (c.clients i).usernameText
  | .event j (.moveToLogin t) => j = i → t = (c.clients i).usernameText
  | _ => True

instance (i : ι) (c : LoginConfig ι) : ∀ a, Decidable (Unedited i c a)
  | .event _ (.editUsername _) | .event _ (.moveToLogin _) => by unfold Unedited; infer_instance
  | .event _ (.editEmail _) | .event _ (.editPassword _) | .event _ .pressLogin
  | .event _ .pressRegister | .event _ .moveToRegister | .event _ .dispose
  | .serve _ _ | .deliver _ _ => .isTrue trivial

/-- The form shows `t`, and the name it holds is the one `t` stands for. -/
structure Typed (t : String) (s : LoginState) : Prop where
  text : s.usernameText = t
  username : s.username = some (normalise t)

section Typed

variable {t : String} {s s' : LoginState}

theorem Typed.formSave (h : Typed t s) : Typed t (formSave s) := by
  cases hf : s.formType with
  | login =>
      rw [formSave_login hf]
      exact ⟨h.text, h.username⟩
  | register =>
      rw [formSave_register hf]
      exact ⟨h.text, by rw [h.text]⟩

theorem Typed.validateAndSubmit (h : Typed t s) : Typed t (validateAndSubmit s).1 := by
  unfold Login.validateAndSubmit validateAndSave
  by_cases he : formErrors s = []
  · simp only [if_pos he]
    split
    · exact h.formSave
    · split <;> exact h.formSave
  · simp only [if_neg he]
    exact ⟨h.text, h.username⟩

theorem Typed.usernameChecked {ds : List (String × Doc)} (h : Typed t s) :
    Typed t (usernameChecked s ds).1 := by
  have havailable : Typed t { s with usernameAvailable := true, authHint := "" } :=
    ⟨h.text, h.username⟩
  unfold Login.usernameChecked
  split
  · split
    · exact ⟨havailable.validateAndSubmit.text, havailable.validateAndSubmit.username⟩
    · exact ⟨h.text, h.username⟩
  · exact h

theorem Typed.submitFailed {e : String} (h : Typed t s) : Typed t (submitFailed s e).1 := by
  unfold Login.submitFailed
  split
  · exact ⟨h.text, h.username⟩
  · exact h

/-- A press of 'Create an account' reads the name off the form. -/
theorem Typed.of_press {out : List Effect} (h : onEvent s .pressRegister = some (s', out)) :
    Typed s.usernameText s' := by
  cases (ran h).2 with
  | pressRegister => exact ⟨rfl, rfl⟩

theorem Typed.onEvent {e : Event} {out : List Effect} (h : Typed t s)
    (he : Login.onEvent s e = some (s', out))
    (hedit : ∀ t', e = .editUsername t' ∨ e = .moveToLogin t' → t' = s.usernameText) :
    Typed t s' := by
  cases (ran he).2 with
  | editUsername t' => exact ⟨(hedit t' (Or.inl rfl)).trans h.text, h.username⟩
  | moveToLogin t' => exact ⟨(hedit t' (Or.inr rfl)).trans h.text, h.username⟩
  | pressLogin => exact h.validateAndSubmit
  | pressRegister =>
      -- `_username` is read off the field, which still shows `t`
      exact ⟨h.text, by rw [← h.text]; rfl⟩
  | editEmail | editPassword | moveToRegister | dispose => exact ⟨h.text, h.username⟩

theorem Typed.onAnswer (h : Typed t s) (cont : Cont) (a : Answer) :
    Typed t (onAnswer s cont a).1 := by
  cases cont with
  | checkUsername =>
      cases a with
      | documents ds => exact h.usernameChecked
      | snapshot | done | user | uid | failed => exact h
  | signIn =>
      cases a with
      | failed e => exact h.submitFailed
      | uid => exact ⟨h.text, h.username⟩
      | documents | snapshot | done | user => exact h
  | createUser =>
      cases a with
      | failed e => exact h.submitFailed
      | uid => exact ⟨h.text, h.username⟩
      | documents | snapshot | done | user => exact h
  | saveUserData => cases a <;> exact h

/-- The only document a handler writes is a profile with the name the form holds. -/
theorem saved_username {cont : Cont} {a : Answer} {call : Call Cont} {p : Path} {d : Doc}
    (hc : call ∈ calls (Login.onAnswer s cont a).2) (hreq : call.req = .setData p d) :
    d.field "brukernavn" = .ofString s.username := by
  cases cont with
  | checkUsername =>
      rcases onAnswer_query_calls s a with h | ⟨-, -, -, -, h⟩ | ⟨-, -, -, -, h⟩ <;> rw [h] at hc
      · cases hc
      · rw [List.mem_singleton.mp hc] at hreq
        cases hreq
      · rw [List.mem_singleton.mp hc] at hreq
        cases hreq
  | signIn =>
      rw [onAnswer_signIn_calls] at hc
      cases hc
  | createUser =>
      rcases onAnswer_createUser_calls s a with ⟨k, -, h⟩ | ⟨-, h⟩ <;> rw [h] at hc
      · rw [List.mem_singleton.mp hc] at hreq
        obtain ⟨-, rfl⟩ := Request.setData.inj hreq
        rfl
      · cases hc
  | saveUserData =>
      rw [onAnswer_save] at hc
      cases hc

end Typed

/-! ## The name that is stored, and the name that is searched -/

/-- Form `i` is submitted with `t` in its name field, which is left alone until the profile `d` has
been issued. -/
structure Saved (i : ι) (t : String) (d : Doc) (c₀ c₁ c : LoginConfig ι) : Prop where
  text : (c₀.clients i).usernameText = t
  press : (loginSystem ι fun _ => True).step c₀ (.event i .pressRegister) = some c₁
  run : (loginSystem ι fun _ => True).Steps (Unedited i) c₁ c
  issued : ∃ m ∈ since c₁ c, m.client = i ∧ ∃ p, m.call.req = .setData p d

section Saved

variable {i : ι} {t : String} {d : Doc} {c₀ c₁ c c' : LoginConfig ι}

/-- What holds of form `i` while its name is left alone. -/
structure NameKept (i : ι) (t : String) (c₁ c : LoginConfig ι) : Prop where
  grown : c₁.issued <+: c.issued
  typed : Typed t (c.clients i)
  named : ∀ m ∈ since c₁ c, m.client = i → ∀ p d, m.call.req = .setData p d →
    d.field "brukernavn" = .str (normalise t)

theorem NameKept.post {j : ι} {s : LoginState} {out : List (Call Cont)}
    {cause : List (Call Cont × Answer)} (h : NameKept i t c₁ c) (htyped : j = i → Typed t s)
    (hout : j = i → ∀ call ∈ out, ∀ p d, call.req = .setData p d →
      d.field "brukernavn" = .str (normalise t)) : NameKept i t c₁ (c.post j s out cause) := by
  refine ⟨h.grown.trans (List.prefix_append _ _), ?_, ?_⟩
  · exact Config.client_post (p := Typed t) (fun hi => htyped hi.symm) fun _ => h.typed
  · intro m hm hi p d hreq
    rcases (mem_since_post h.grown).mp hm with hm | ⟨call, hc, rfl⟩
    · exact h.named m hm hi p d hreq
    · exact hout hi call hc p d hreq

theorem NameKept.step {a : LoginAction ι} (h : NameKept i t c₁ c) (hC : Unedited i c a)
    (hs : (loginSystem ι fun _ => True).step c a = some c') : NameKept i t c₁ c' := by
  refine step_keeps (Q := NameKept i t c₁) hs ?_ ?_ ?_
  · intro j e s out hact he
    subst hact
    obtain ⟨eff, heff, rfl⟩ := program_onEvent he
    refine h.post ?_ ?_
    · rintro rfl
      refine h.typed.onEvent heff ?_
      rintro t' (rfl | rfl)
      · exact hC rfl
      · exact hC rfl
    · rintro - call hc p d hreq
      rcases onEvent_calls heff with h' | ⟨-, h'⟩ | ⟨-, -, -, h'⟩ <;> rw [h'] at hc
      · cases hc
      · rw [List.mem_singleton.mp hc] at hreq
        cases hreq
      · rw [List.mem_singleton.mp hc] at hreq
        cases hreq
  · intro k o m b r _ _ _
    exact ⟨h.grown, h.typed, h.named⟩
  · intro k x m r s out _ _ ha
    obtain ⟨rfl, rfl⟩ := program_onAnswer ha
    have htaken : NameKept i t c₁ (c.taken k) := ⟨h.grown, h.typed, h.named⟩
    refine htaken.post ?_ ?_
    · rintro rfl
      exact h.typed.onAnswer m.call.cont r
    · rintro rfl call hc p d hreq
      rw [saved_username hc hreq, h.typed.username]
      rfl

/-- What is stored is the trimmed lower-case form of what was typed. -/
theorem Saved.brukernavn (h : Saved i t d c₀ c₁ c) :
    d.field "brukernavn" = .str (normalise t) := by
  have hstart : NameKept i t c₁ c₁ := by
    obtain ⟨s, out, he, rfl⟩ := step_event (S := firebase ι Cont) h.press
    obtain ⟨eff, heff, rfl⟩ := program_onEvent he
    refine ⟨List.prefix_refl _, ?_, ?_⟩
    · rw [Config.post_clients_self, ← h.text]
      exact Typed.of_press heff
    · intro m hm
      rw [since, List.drop_length] at hm
      cases hm
  have hkept := h.run.preserves (P := NameKept i t c₁) hstart fun _ _ _ hq hC hs => hq.step hC hs
  obtain ⟨m, hm, hi, p, hreq⟩ := h.issued
  exact hkept.named m hm hi p d hreq

/-- **Registration and search.** A text `s` with the same trimmed lower-case form as the registered
text `t` asks for exactly the stored name, and that name is not empty, if and only if `t` is not
blank and `s` has no whitespace at its ends. In particular the text one registered with finds the
profile if and only if it has none. -/
theorem names_agree_iff (h : Saved i t d c₀ c₁ c) :
    (∀ s, normalise s = normalise t →
      (d.field "brukernavn" ≠ .str "" ∧
        fireSearch s = .whereEq usersPath "brukernavn" (d.field "brukernavn") ↔
          trim t ≠ "" ∧ trim s = s)) ∧
      ∀ (db : Db) (id : String), DocStore.get db (usersPath ++ [id]) = some d →
        ((id, d) ∈ db.whereEq usersPath "brukernavn" (.str (toLowerCase t)) ↔ trim t = t) := by
  have hname := h.brukernavn
  constructor
  · intro s hs
    have hempty : d.field "brukernavn" ≠ .str "" ↔ trim t ≠ "" := by
      rw [hname, ne_eq, Value.str.injEq, normalise, Dart.toLowerCase_eq_empty]
    -- `_fireSearch` lower-cases and does not trim
    have hquery : fireSearch s = .whereEq usersPath "brukernavn" (d.field "brukernavn") ↔
        trim s = s := by
      rw [hname, ← hs, ← Dart.toLowerCase_trim_eq_iff]
      simp [fireSearch, normalise]
    rw [hempty, hquery]
  · intro db id hget
    rw [Db.mem_whereEq, hname, ← Dart.toLowerCase_trim_eq_iff]
    constructor
    · rintro ⟨-, heq⟩
      exact (Value.str.inj heq).symm
    · intro heq
      exact ⟨hget, congrArg Value.str heq.symm⟩

end Saved

/-! ## A name without whitespace at its ends, and two with -/

/-- A form that registers as `t`, left alone: the text in its name field, and the calls it issues
after the press. -/
def registering (t : String) : Option (String × List (Call Cont)) :=
  ((loginSystem Unit fun _ => True).run (start (Backend.empty Unit))
      (fillForm () t "o@p" "x")).bind fun c₀ =>
    ((loginSystem Unit fun _ => True).step c₀ (.event () .pressRegister)).bind fun c₁ =>
      ((loginSystem Unit fun _ => True).follow (Unedited ()) c₁ [.serve 0 (.accept ""),
          .deliver 0 (), .serve 0 (.accept "u1"), .deliver 0 ()]).map fun c =>
        ((c₀.clients ()).usernameText, (since c₁ c).map (·.call))

theorem saved_of_registering {t : String} {cs : List (Call Cont)} {e n : Option String}
    (h : registering t = some (t, cs)) (hc : saveCall "u1" e n ∈ cs) :
    ∃ c₀ c₁ c : LoginConfig Unit, (loginSystem Unit fun _ => True).Reachable c₀ ∧
      Saved () t [("uid", .str "u1"), ("email", .ofString e), ("brukernavn", .ofString n)]
        c₀ c₁ c := by
  obtain ⟨c₀, h₀, h⟩ := Option.bind_eq_some_iff.mp h
  obtain ⟨c₁, h₁, h⟩ := Option.bind_eq_some_iff.mp h
  obtain ⟨c, hrun, h⟩ := Option.map_eq_some_iff.mp h
  obtain ⟨htext, rfl⟩ := Prod.mk.inj h
  obtain ⟨m, hm, hcall⟩ := List.mem_map.mp hc
  refine ⟨c₀, c₁, c, Machine.Reach.of_follow ⟨_, trivial, rfl⟩ h₀, htext, h₁,
    Machine.Steps.of_follow hrun, m, hm, rfl, userPath (some "u1"), ?_⟩
  rw [hcall]
  rfl

theorem registering_ola : registering "Ola" = some ("Ola",
    [⟨.createUser, .createUser (some "o@p") (some "x")⟩,
      saveCall "u1" (some "o@p") (some "ola")]) := by
  decide +kernel

theorem names_agree_ola : ∃ (d : Doc) (c₀ c₁ c : LoginConfig Unit), Saved () "Ola" d c₀ c₁ c ∧
    fireSearch "OLA" = .whereEq usersPath "brukernavn" (d.field "brukernavn") := by
  obtain ⟨c₀, c₁, c, -, h⟩ := saved_of_registering registering_ola
    (List.mem_cons_of_mem _ (List.mem_singleton_self _))
  refine ⟨_, c₀, c₁, c, h, ?_⟩
  exact (((names_agree_iff h).1 "OLA" (by decide +kernel)).mpr
    ⟨by decide +kernel, by decide +kernel⟩).2

theorem registering_blank : registering " " = some (" ",
    [⟨.createUser, .createUser (some "o@p") (some "x")⟩,
    saveCall "u1" (some "o@p") (some "")]) := by
  decide +kernel

theorem registering_indented : registering " Ola" = some (" Ola",
    [⟨.createUser, .createUser (some "o@p") (some "x")⟩,
      saveCall "u1" (some "o@p") (some "ola")]) := by
  decide +kernel

/-- The validator accepts a single blank, which is stored as the empty name; and it accepts ` Ola`,
which does not find itself. -/
theorem not_names_agree :
    (¬ ∀ (t : String) (d : Doc) (c₀ c₁ c : LoginConfig Unit),
      (loginSystem Unit fun _ => True).Reachable c₀ → brukernavnField.validator t = none →
      Saved () t d c₀ c₁ c → d.field "brukernavn" ≠ .str "") ∧
    ¬ ∀ (t : String) (d : Doc) (c₀ c₁ c : LoginConfig Unit),
      (loginSystem Unit fun _ => True).Reachable c₀ → brukernavnField.validator t = none →
      Saved () t d c₀ c₁ c → ∀ s, normalise s = normalise t →
        fireSearch s = .whereEq usersPath "brukernavn" (d.field "brukernavn") := by
  constructor
  · intro h
    obtain ⟨c₀, c₁, c, hr, hsaved⟩ := saved_of_registering registering_blank
      (List.mem_cons_of_mem _ (List.mem_singleton_self _))
    exact h " " _ c₀ c₁ c hr (by decide +kernel) hsaved rfl
  · intro h
    obtain ⟨c₀, c₁, c, hr, hsaved⟩ := saved_of_registering registering_indented
      (List.mem_cons_of_mem _ (List.mem_singleton_self _))
    have hfinds := h " Ola" _ c₀ c₁ c hr (by decide +kernel) hsaved " Ola" rfl
    exact absurd hfinds (by decide +kernel)

end P0ker.Usernames
