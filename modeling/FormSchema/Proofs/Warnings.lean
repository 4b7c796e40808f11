import FormSchema.Proofs.Calls
import FormSchema.Proofs.Flattening
import FormSchema.Proofs.Replay
import Mathlib.Data.List.Induction

/-!
# What a conflict is reported for

A conflict is found where the entry of a node is compiled, and every walk that comes
to the node first can be the one that compiles it.  The conflict is then reported for
the path of that walk, while the record behind it names the path of the node.  The
two are the same where the walk ends at the node; where it goes further the report
names a field below, whose own members need not differ in anything.
-/

namespace FormSchema

/-- The members of a node declare types that differ from the type that counts. -/
def Node.Disputes (document : Json) (node : Node) (found : Conflict) : Prop :=
  ∃ members, node.combined document = .ok members ∧
    (node.given? "type").or (Entry.declaredTypes members).head? = some found.winner ∧
    found.declared =
      (Entry.declaredTypes members).filter (fun type => !type.same found.winner) ∧
    found.declared ≠ []

namespace Entry

variable {document : Json} {node : Node} {isRequired : Bool} {entry : Entry}
  {conflict : Option Conflict}

theorem Compiled.conflict_eq (h : Compiled document node isRequired entry conflict) :
    conflict = conflict?
      ((node.given? "type").or (declaredTypes entry.objects).head?)
      (declaredTypes entry.objects) := by
  by_cases hnil : entry.objects = []
  · obtain ⟨_, _, _, rfl⟩ := h.stated hnil
    rw [hnil]
    cases node.given? "type" <;> rfl
  · obtain ⟨_, _, _, _, htype, hconflict⟩ := h.merged hnil
    rw [hconflict, htype]
    cases node.given? "type" <;> rfl

theorem conflict_eq_some_iff
    (h : compile document node isRequired = .ok (entry, conflict)) (found : Conflict) :
    conflict = some found ↔ node.Disputes document found := by
  have hcompiled := compiled h
  rw [hcompiled.conflict_eq, conflict?_eq_some_iff]
  constructor
  · intro hparts
    exact ⟨entry.objects, hcompiled.combined, hparts⟩
  · rintro ⟨members, hmembers, hparts⟩
    cases hcompiled.combined.symm.trans hmembers
    exact hparts

end Entry

/-- A conflict that is reported for a path was found on the way to the path. -/
structure Form.FoundOnWay (form : Form) (requested visited : List String) (path : String)
    (found : Conflict) : Prop where
  reported : path = Path.key requested
  below : visited ≠ []
  onWay : visited <+: requested
  disputed : ∃ node, form.reply [] (.field (.listed visited)) = .ok (.field node) ∧
    node.Disputes (.obj form.document) found

/-- A conflict is reported for one of the paths asked for, with this key behind it. -/
def Form.Warns (form : Form) (asked : List String → Prop) (path : String)
    (found : Conflict) (key : String) : Prop :=
  ∃ requested visited, asked requested ∧ key = Path.key visited ∧
    form.FoundOnWay requested visited path found

def Ledger.Continues (relation : String → Conflict → String → Prop)
    (before after : Ledger) : Prop :=
  ∃ added, after.journal = before.journal ++ added ∧ Record.Followed relation added

namespace Ledger.Continues

variable {relation : String → Conflict → String → Prop}
  {before middle after : Ledger}

theorem refl (ledger : Ledger) : Continues relation ledger ledger :=
  ⟨[], (List.append_nil _).symm, .nil⟩

theorem trans (hfirst : Continues relation before middle)
    (hsecond : Continues relation middle after) : Continues relation before after := by
  obtain ⟨first, hmiddle, hnoted⟩ := hfirst
  obtain ⟨second, hafter, hmore⟩ := hsecond
  exact ⟨first ++ second, by rw [hafter, hmiddle, List.append_assoc],
    hnoted.append hmore⟩

theorem memoized (ledger : Ledger) (entryPoint : EntryPoint) (key : String) :
    Continues relation ledger (ledger.note (.memoized entryPoint key)) :=
  ⟨[.memoized entryPoint key], rfl, .singleton nofun⟩

theorem store (ledger : Ledger) (requested key : String) (entry : Entry)
    {conflict : Option Conflict}
    (h : ∀ found, conflict = some found → relation requested found key) :
    Continues relation ledger (ledger.store requested key entry conflict) :=
  ⟨_, ledger.journal_store requested key entry conflict,
    followed_noted requested key conflict h⟩

end Ledger.Continues

/-! ## What a walk reports -/

namespace Walk

variable {form : Form} {asked : List String → Prop} {requested visited : List String}
  {stop : Stop} {ledger : Ledger}

theorem continues_of_visit {segment : String} {next : Stop} {after : Ledger}
    (hasked : asked requested) (honWay : visited ++ [segment] <+: requested)
    (hnext : (Stop.start form.root).along (.obj form.document) (visited ++ [segment]) =
      .ok next)
    (h : visit (.obj form.document) (Path.key requested) visited stop.node segment
      ledger = .ok (next.node, after)) :
    ledger.Continues (form.Warns asked) after := by
  obtain ⟨_, ⟨_, rfl⟩ | ⟨_, entry, conflict, hcompile, rfl⟩⟩ := visit_cases h
  · exact .refl _
  · apply Ledger.Continues.store
    intro found hfound
    have hreply : form.reply [] (.field (.listed (visited ++ [segment]))) =
        .ok (.field next.node) :=
      Form.reply_field_listed_eq_ok_iff.2 ⟨next, hnext, rfl⟩
    exact ⟨requested, visited ++ [segment], hasked, rfl,
      { reported := rfl
        below := by simp
        onWay := honWay
        disputed := ⟨next.node, hreply,
          (Entry.conflict_eq_some_iff hcompile found).1 hfound⟩ }⟩

theorem onward_continues (hasked : asked requested)
    (htraced : Traced (.obj form.document) form.root ledger.entries)
    (hstop : (Stop.start form.root).along (.obj form.document) visited = .ok stop)
    (hcached : ledger.entries.get? (Path.key visited) = stop.entry)
    {segments : List String} (hpath : visited ++ segments = requested) :
    ledger.Continues (form.Warns asked)
      (onward (.obj form.document) (Path.key requested) visited stop.node segments
        ledger).2 := by
  induction segments generalizing ledger visited stop with
  | nil => exact .refl _
  | cons segment rest ih =>
      -- The ledger stays traced, so the next visit starts from a stop as well.
      obtain ⟨middle, hvisit, hleaves⟩ :=
        visit_eq_step htraced hstop hcached (Path.key requested) segment
      rw [onward]
      cases hstep : stop.step (.obj form.document) segment with
      | error cause =>
          rw [hstep] at hvisit
          rw [hvisit]
          exact .refl _
      | ok next =>
          rw [hstep] at hvisit
          have hnext := (Stop.along_snoc hstop segment).trans hstep
          have hrest : visited ++ [segment] ++ rest = requested := by
            rw [← hpath, List.append_assoc, List.singleton_append]
          have hfirst : ledger.Continues (form.Warns asked) middle :=
            continues_of_visit hasked ⟨rest, hrest⟩ hnext hvisit
          rw [hvisit]
          exact hfirst.trans
            (ih hleaves.traced hnext (hleaves.cached next hstep) hrest)

end Walk

/-! ## What an action reports -/

structure Action.Reports {α : Type} (form : Form) (asked : List String → Prop)
    (action : Action α) : Prop where
  steady : action.Steady form
  continues : ∀ session : Session, session.Coherent form →
    session.ledger.Continues (form.Warns asked) (action.runOn session).2.ledger

namespace Action.Reports

variable {α β : Type} {form : Form} {asked : List String → Prop}

theorem ofExcept (outcome : Except Failure α) :
    (Action.ofExcept outcome).Reports form asked where
  steady := (Settles.ofExcept outcome).steady
  continues := by
    intro session _
    rw [runOn_ofExcept]
    exact .refl _

theorem ofFault (outcome : Except Fault α) :
    (Action.ofFault outcome).Reports form asked := by
  rw [ofFault_eq]
  exact ofExcept _

theorem bind {action : Action α} {next : α → Action β}
    (hfirst : action.Reports form asked)
    (hnext : ∀ value, (next value).Reports form asked) :
    (action >>= next).Reports form asked where
  steady := hfirst.steady.bind fun value => (hnext value).steady
  continues := by
    intro session hsession
    have hmiddle := hfirst.steady.coherent hsession
    have hnoted := hfirst.continues session hsession
    rw [runOn_bind]
    rcases hrun : action.runOn session with ⟨failure | value, middle⟩
    · rw [hrun] at hnoted
      exact hnoted
    · rw [hrun] at hnoted hmiddle
      exact hnoted.trans ((hnext value).continues middle hmiddle)

theorem answer {memo : Memo α} {key : String} {compute : Action α}
    (hsteady : (memo.answer key compute).Steady form)
    (hcompute : compute.Reports form asked)
    (hwrite : ∀ (session : Session) (table : Table α),
      (memo.write session table).ledger = session.ledger) :
    (memo.answer key compute).Reports form asked where
  steady := hsteady
  continues := by
    intro session hsession
    rw [Memo.runOn_answer]
    cases (memo.read session).get? key with
    | some value => exact .refl _
    | none =>
        have hnoted := hcompute.continues session hsession
        rcases hrun : compute.runOn session with ⟨failure | value, middle⟩
        · rw [hrun] at hnoted
          exact hnoted
        · rw [hrun] at hnoted
          dsimp only
          rw [Memo.store, hwrite]
          exact hnoted.trans (.memoized middle.ledger memo.entryPoint key)

end Action.Reports

namespace Form

open FormSchema.Action

variable (form : Form) {asked : List String → Prop} {path : List String}

theorem visit_reports (hasked : asked path) : (form.visit path).Reports form asked where
  steady := (form.visit_replays path).steady
  continues := by
    intro session hsession
    have hstart : (Stop.start form.root).along (.obj form.document) [] =
        .ok (Stop.start form.root) := rfl
    rw [runOn_visit_eq]
    exact Walk.onward_continues hasked hsession.traced hstart
      hsession.traced.get?_root (List.nil_append path)

theorem field_reports (hasked : asked path) : (form.field path).Reports form asked :=
  .answer (settles_field path).steady (form.visit_reports hasked) fun _ _ => rfl

theorem entry_reports (hasked : asked path) : (form.entry path).Reports form asked where
  steady := (settles_entry path).steady
  continues := by
    intro session hsession
    rw [runOn_entry_eq]
    split
    · exact .refl _
    · exact (form.field_reports hasked).continues session hsession

theorem subfields_reports (hasked : asked path) :
    (form.subfields path).Reports form asked := by
  apply Reports.answer (settles_subfields path).steady
  · split
    · exact .ofFault _
    · exact .bind (form.field_reports hasked) fun _ =>
        .bind (form.entry_reports hasked) fun _ => .ofFault _
  · exact fun _ _ => rfl

theorem type_reports (hasked : asked path) : (form.type path).Reports form asked :=
  .answer (settles_type path).steady
    (.bind (form.field_reports hasked) fun _ =>
      .bind (form.entry_reports hasked) fun _ => .ofExcept _)
    fun _ _ => rfl

theorem reports_pervades (asked : List String → Prop) :
    form.PervadesOn asked fun action => action.Reports form asked where
  ofExcept := Reports.ofExcept
  bind := Reports.bind
  field := fun _ => form.field_reports
  entry := fun _ => form.entry_reports
  subfields := fun _ => form.subfields_reports
  type := fun _ => form.type_reports

theorem continues_after_call (calls : List Call) (call : Call) :
    (form.after calls).ledger.Continues (form.Warns call.Asks)
      (form.after (calls ++ [call])).ledger := by
  rw [after_snoc]
  exact (form.reports_pervades call.Asks).perform.continues _ (form.after_coherent calls)

theorem exists_call_of_conflict {calls : List Call} {position : Nat} {path : String}
    {found : Conflict}
    (h : (form.after calls).ledger.journal[position]? = some (.conflict path found)) :
    ∃ earlier call later key, calls = earlier ++ call :: later ∧
      (form.after earlier).ledger.journal.length ≤ position ∧
      position + 1 < (form.after (earlier ++ [call])).ledger.journal.length ∧
      (form.after calls).ledger.journal[position + 1]? = some (.compiled key) ∧
      form.Warns call.Asks path found key := by
  induction calls using List.reverseRecOn with
  | nil => cases h
  | append_singleton calls call ih =>
      obtain ⟨added, hjournal, hfollowed⟩ := form.continues_after_call calls call
      -- The record was there before the last call, or the last call has noted it.
      by_cases hlt : position < (form.after calls).ledger.journal.length
      · rw [hjournal, List.getElem?_append_left hlt] at h
        obtain ⟨earlier, maker, later, key, rfl, hle, hnext, hkey, hwarns⟩ := ih h
        have hinside := (List.getElem?_eq_some_iff.1 hkey).1
        refine ⟨earlier, maker, later ++ [call], key, by simp, hle, hnext, ?_, hwarns⟩
        rw [hjournal, List.getElem?_append_left hinside, hkey]
      · have hle := Nat.le_of_not_lt hlt
        rw [hjournal, List.getElem?_append_right hle] at h
        obtain ⟨key, hkey, hwarns⟩ := hfollowed _ path found h
        have hnext : (form.after (calls ++ [call])).ledger.journal[position + 1]? =
            some (.compiled key) := by
          rw [hjournal, List.getElem?_append_right (by omega), ← hkey]
          congr 1
          omega
        exact ⟨calls, call, [], key, rfl, hle, (List.getElem?_eq_some_iff.1 hnext).1,
          hnext, hwarns⟩

/-- Each conflict in the journal was noted by a call, for a path that the call asks
for, and with the entry of a node on the way to that path whose members it is about.
So it names the node only where the path ends there. -/
theorem conflict_names_requested {calls : List Call} {position : Nat} {path : String}
    {found : Conflict}
    (h : (form.after calls).ledger.journal[position]? = some (.conflict path found)) :
    ∃ earlier call later requested visited, calls = earlier ++ call :: later ∧
      (form.after earlier).ledger.journal.length ≤ position ∧
      position + 1 < (form.after (earlier ++ [call])).ledger.journal.length ∧
      call.Asks requested ∧ form.FoundOnWay requested visited path found ∧
      (form.after calls).ledger.journal[position + 1]? =
        some (.compiled (Path.key visited)) ∧
      (path = Path.key visited ↔ visited = requested) := by
  obtain ⟨earlier, call, later, _, hcalls, hle, hnext, hkey, requested, visited, hasked,
    rfl, horigin⟩ := form.exists_call_of_conflict h
  refine ⟨earlier, call, later, requested, visited, hcalls, hle, hnext, hasked, horigin,
    hkey, ?_⟩
  rw [horigin.reported, Path.key_inj, eq_comm]

end Form

def contested : Node :=
  [("type", .str "object"),
   ("properties", .obj [
     ("x", .obj [
       ("anyOf", .arr [
         .obj [
           ("type", .str "object"),
           ("properties", .obj [("y", .obj [("type", .str "string")])])],
         .obj [("type", .str "string")]])])])]

def contestedForm : Form := ⟨contested, contested, .null⟩

theorem journal_contested :
    (contestedForm.after [.field (.listed ["x", "y"])]).ledger.journal =
      [.conflict "x.y" ⟨[.str "string"], .str "object"⟩, .compiled "x",
        .compiled "x.y", .memoized .field "x.y"] := rfl

theorem contested_named_below :
    contestedForm.FoundOnWay ["x", "y"] ["x"] "x.y"
      ⟨[.str "string"], .str "object"⟩ := by
  have hconflict :
      (contestedForm.after [.field (.listed ["x", "y"])]).ledger.journal[0]? =
        some (.conflict "x.y" ⟨[.str "string"], .str "object"⟩) := by
    rw [journal_contested]
    rfl
  obtain ⟨_, _, _, requested, visited, _, _, _, _, horigin, hkey, _⟩ :=
    contestedForm.conflict_names_requested hconflict
  have hrequested : requested = ["x", "y"] := Path.key_inj.1 horigin.reported.symm
  have hvisited : visited = ["x"] := by
    rw [journal_contested] at hkey
    exact Path.key_inj.1 (Record.compiled.inj (Option.some.inj hkey)).symm
  rwa [hrequested, hvisited] at horigin

/-- A conflict does not always name the field whose entry is noted behind it. -/
theorem contested_not_named :
    ¬ ∀ (document : Node) (validator : Json) (form : Form) (calls : List Call)
      (position : Nat) (path : String) (found : Conflict),
      Form.open document validator = .ok form →
        (form.after calls).ledger.journal[position]? = some (.conflict path found) →
        (form.after calls).ledger.journal[position + 1]? = some (.compiled path) := by
  intro h
  have hopen : Form.open contested .null = .ok contestedForm := rfl
  have hnext := h contested .null contestedForm [.field (.listed ["x", "y"])] 0 "x.y"
    ⟨[.str "string"], .str "object"⟩ hopen (by rw [journal_contested]; rfl)
  rw [journal_contested] at hnext
  have hkey : "x" = "x.y" := Record.compiled.inj (Option.some.inj hnext)
  exact absurd hkey (by decide)

end FormSchema
