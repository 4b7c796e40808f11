import FormSchema.Proofs.Calls
import FormSchema.Proofs.Causes
import FormSchema.Proofs.Steady

/-!
# Answers and the calls before them

Whatever calls a form was given, failing ones among them, its session is
coherent.  Two things follow.  A call is answered as if it were the first one.
And the entries in the ledger are those of paths below the root, written from
the root down, each as its node compiles; every field that is remembered has its
entry there, so an entry that is asked for is never missing.
-/

namespace FormSchema

def Action.Steady {α : Type} (form : Form) (action : Action α) : Prop :=
  ∃ outcome, action.Settles form outcome

namespace Action

variable {α β : Type} {form : Form}

theorem Settles.steady {action : Action α} {outcome : Except Failure α}
    (h : action.Settles form outcome) : action.Steady form :=
  ⟨outcome, h⟩

namespace Steady

theorem bind {action : Action α} {next : α → Action β}
    (hfirst : action.Steady form) (hnext : ∀ value, (next value).Steady form) :
    (action >>= next).Steady form := by
  obtain ⟨outcome, hfirst⟩ := hfirst
  cases outcome with
  | error failure =>
      have hrest : ∀ value, (Except.error failure : Except Failure α) = .ok value →
          (next value).Settles form (.error failure) := nofun
      exact (hfirst.bind hrest).steady
  | ok value =>
      obtain ⟨answer, hanswer⟩ := hnext value
      have hrest : ∀ other, (Except.ok value : Except Failure α) = .ok other →
          (next other).Settles form answer := by
        rintro _ ⟨⟩
        exact hanswer
      exact (hfirst.bind hrest).steady

theorem coherent {action : Action α} {session : Session}
    (h : action.Steady form) (hsession : session.Coherent form) :
    (action.runOn session).2.Coherent form := by
  obtain ⟨outcome, hsettles⟩ := h
  obtain ⟨after, hrun, hafter⟩ := hsettles session hsession
  rw [hrun]
  exact hafter

end Steady

end Action

namespace Form

open FormSchema.Action

variable (form : Form)

theorem steady_pervades : form.Pervades fun action => action.Steady form where
  ofExcept := fun outcome => (Settles.ofExcept outcome).steady
  bind := Steady.bind
  field := fun path => (settles_field path).steady
  entry := fun path => (settles_entry path).steady
  subfields := fun path => (settles_subfields path).steady
  type := fun path => (settles_type path).steady

theorem perform_steady (call : Call) : (form.perform call).Steady form :=
  form.steady_pervades.perform call

theorem after_coherent (calls : List Call) : (form.after calls).Coherent form := by
  have hrun : ∀ (calls : List Call) (session : Session),
      session.Coherent form →
        (calls.foldl (fun session call => ((form.perform call).runOn session).2)
          session).Coherent form := by
    intro calls
    induction calls with
    | nil => exact fun _ h => h
    | cons call calls ih =>
        intro session hsession
        exact ih _ ((form.perform_steady call).coherent hsession)
  exact hrun calls {} .empty

theorem reply_eq_of_settles {call : Call} {outcome : Except Failure Answer}
    (h : (form.perform call).Settles form outcome) (calls : List Call) :
    form.reply calls call = outcome := by
  obtain ⟨after, hrun, _⟩ := h _ (form.after_coherent calls)
  rw [reply, hrun]

/-- A call is answered as it is on a form that was never asked before. -/
theorem reply_eq_first_reply (calls : List Call) (call : Call) :
    form.reply calls call = form.reply [] call := by
  obtain ⟨outcome, hsettles⟩ := form.perform_steady call
  rw [form.reply_eq_of_settles hsettles calls,
    form.reply_eq_of_settles hsettles []]

theorem reply_field (calls : List Call) (name : Spelling) :
    form.reply calls (.field name) =
      name.path >>= fun path => form.nodeAt path >>= fun node =>
        .ok (.field node) := by
  apply form.reply_eq_of_settles
  apply Settles.bind (Settles.ofExcept name.path)
  intro path _
  exact .bind (settles_field path) fun node _ => .pure _

theorem reply_subfields (calls : List Call) (name : Spelling) :
    form.reply calls (.subfields name) =
      name.path >>= fun path => form.namesAt path >>= fun names =>
        .ok (.subfields names) := by
  apply form.reply_eq_of_settles
  apply Settles.bind (Settles.ofExcept name.path)
  intro path _
  exact .bind (settles_subfields path) fun names _ => .pure _

theorem reply_entry (calls : List Call) (name : Spelling) :
    form.reply calls (.entry name) =
      name.path >>= fun path => form.entryAt path >>= fun entry =>
        .ok (.entry entry) := by
  apply form.reply_eq_of_settles
  apply Settles.bind (Settles.ofExcept name.path)
  intro path _
  exact .bind (settles_entry path) fun entry _ => .pure _

theorem reply_type (calls : List Call) (name : Spelling) :
    form.reply calls (.type name) =
      name.path >>= fun path => form.typeAt path >>= fun type =>
        .ok (.type type) := by
  apply form.reply_eq_of_settles
  apply Settles.bind (Settles.ofExcept name.path)
  intro path _
  exact .bind (settles_type path) fun type _ => .pure _

variable {form : Form} {calls : List Call} {path : List String}

theorem reply_field_listed_eq_ok_iff {node : Node} :
    form.reply calls (.field (.listed path)) = .ok (.field node) ↔
      ∃ stop, (Stop.start form.root).along (.obj form.document) path = .ok stop ∧
        stop.node = node := by
  simp only [reply_field, Spelling.path, ok_bind, nodeAt, bind_eq_ok_iff,
    map_eq_ok_iff, stopAt_eq_ok_iff, Except.ok.injEq, Answer.field.injEq]
  constructor
  · rintro ⟨_, ⟨stop, hstop, rfl⟩, rfl⟩
    exact ⟨stop, hstop, rfl⟩
  · rintro ⟨stop, hstop, rfl⟩
    exact ⟨stop.node, ⟨stop, hstop, rfl⟩, rfl⟩

theorem reply_entry_listed_eq_ok_iff {entry : Entry} :
    form.reply calls (.entry (.listed path)) = .ok (.entry entry) ↔
      ∃ stop, (Stop.start form.root).along (.obj form.document) path = .ok stop ∧
        stop.entry.getD {} = entry := by
  simp only [reply_entry, Spelling.path, ok_bind, entryAt, bind_eq_ok_iff,
    map_eq_ok_iff, stopAt_eq_ok_iff, Except.ok.injEq, Answer.entry.injEq]
  constructor
  · rintro ⟨_, ⟨stop, hstop, rfl⟩, rfl⟩
    exact ⟨stop, hstop, rfl⟩
  · rintro ⟨stop, hstop, rfl⟩
    exact ⟨_, ⟨stop, hstop, rfl⟩, rfl⟩

end Form

theorem Spelling.path_ne_missingKey (name : Spelling) (path : Option String) :
    name.path ≠ .error ⟨.fault .missingKey, path⟩ := by
  cases name with
  | root => nofun
  | listed segments => nofun
  | unreadable => nofun
  | literal text =>
      intro h
      change ofLiteral text.toList = _ at h
      unfold ofLiteral at h
      split at h
      · cases h
      · cases h
      · split at h
        · cases h
        · cases h

theorem Form.entryAt_ne_missingKey (form : Form) (segments : List String)
    (path : Option String) :
    form.entryAt segments ≠ .error ⟨.fault .missingKey, path⟩ := by
  intro h
  have hblames := Stop.along_inWalk (.obj form.document) (.start form.root) segments
  unfold entryAt stopAt at h
  cases halong : (Stop.start form.root).along (.obj form.document) segments with
  | ok stop =>
      rw [halong] at h
      cases h
  | error cause =>
      have hkind := hblames cause halong
      rw [halong] at h
      cases h
      cases hkind

/-- What a session holds after any calls is coherent with the schema, and the
entry of a field that is remembered is never missing. -/
theorem Form.after_ledger_coherent (form : Form) (calls : List Call) :
    (form.after calls).ledger.Coherent (.obj form.document) form.root ∧
    (∀ key ∈ (form.after calls).fields.keys, key ≠ "" →
      key ∈ (form.after calls).ledger.entries.keys) ∧
    ∀ name path,
      form.reply calls (.entry name) ≠ .error ⟨.fault .missingKey, path⟩ := by
  have hcoherent := form.after_coherent calls
  refine ⟨hcoherent.traced.coherent, hcoherent.cached, ?_⟩
  intro name path h
  rw [form.reply_entry] at h
  rcases bind_eq_error_iff.1 h with hname | ⟨segments, _, hrest⟩
  · exact name.path_ne_missingKey path hname
  · rcases bind_eq_error_iff.1 hrest with hentry | ⟨_, _, hok⟩
    · exact form.entryAt_ne_missingKey segments path hentry
    · cases hok

end FormSchema
