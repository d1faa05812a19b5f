import StatusListServer.AdapterOutcomes
import StatusListServer.ServedStatuses

/-!
# The aggregation of all lists

`get_aggregation` answers with what `list_uris` returns.  Both adapters compute it with
one scan of the rows, one with a set and one with `GROUP BY` and `ORDER BY`.  Rows are
never deleted and the URI of a list never changes, so the answer is the sorted list of
the URIs of all publications that had landed when the scan was made.

The database is one that groups and orders texts by their code points, as with a binary
collation.
-/

namespace StatusListServer

open KeyedTable CheckedEval Interaction

/-- **Both adapters list the URIs of the stored rows**, in ascending order and each
once. -/
theorem Backend.answers_listUris {backend : Backend} {db db' : Database} {uris : List String}
    (h : backend.Answers .listUris db (.ok uris) db') :
    uris.Pairwise (· < ·) ∧ ∀ uri, uri ∈ uris ↔ ∃ row ∈ db.rows, row.sub = uri := by
  have hmemory : ∀ order : ScanOrder, (Memory.listUris order db).Pairwise (· < ·) ∧
      ∀ uri, uri ∈ Memory.listUris order db ↔ ∃ row ∈ db.rows, row.sub = uri := by
    intro order
    obtain ⟨hsorted, hmem⟩ :=
      btreeCollect_spec ((order.rows.visit db.rows.rows).map StatusListRecord.sub)
    refine ⟨hsorted, ?_⟩
    intro uri
    rw [Memory.listUris, hmem uri, List.mem_map]
    simp only [order.rows.mem, Table.mem_rows]
  cases backend with
  | memory withSnapshot =>
      obtain ⟨order, horder⟩ := h
      cases horder
      exact hmemory order
  | sql reserialise =>
      obtain ⟨faults, order, horder⟩ := h
      simp only [Sql.handle, Sql.query] at horder
      split at horder
      · cases horder
      · cases horder
        rw [← uris_agree (Table.Same.refl db.rows) order order]
        exact hmemory order

/-- Only the first call of a version publishes, and it gives the list its URI. -/
theorem Composed.publisher_unique {d : Deployment} {tasks : Nat → Task} {calls : List Nat}
    {record : StatusListRecord} (h : Composed d tasks calls record) {j : Nat} (hj : j ∈ calls)
    {args : PublishArgs} (hargs : (tasks j).publishArgs d.app = some args) :
    record.listId = args.listId ∧ record.sub = args.sub := by
  induction h with
  | @published i args' record htask hlistId hsub _ =>
      obtain rfl := List.mem_singleton.mp hj
      rw [htask] at hargs
      cases hargs
      exact ⟨hlistId, hsub⟩
  | @updated calls read record i args' _ htask _ hlistId hsub _ ih =>
      rcases List.mem_append.mp hj with hj | hj
      · obtain ⟨hlist, hsub'⟩ := ih hj
        exact ⟨hlistId.trans hlist, hsub.trans hsub'⟩
      · obtain rfl := List.mem_singleton.mp hj
        cases hkind : tasks j <;>
          simp [hkind, Task.publishArgs, Task.updateArgs] at hargs htask

/-- A publication of a list under a URI has landed. -/
def PublishedAs (d : Deployment) (tasks : Nat → Task) (t : List PortEvent) (uri : String) : Prop :=
  ∃ j args, (tasks j).publishArgs d.app = some args ∧ j ∈ landedCalls args.listId t ∧
    args.sub = uri

/-- The rows are those of the publications that have landed. -/
theorem Provenance.stored_uris {d : Deployment} {tasks : Nat → Task} {t : List PortEvent}
    {l : Calls d.app} (h : Provenance d tasks t l) (uri : String) :
    (∃ row ∈ l.world.db.rows, row.sub = uri) ↔ PublishedAs d tasks t uri := by
  constructor
  · rintro ⟨row, hrow, rfl⟩
    have hcomposed := h.row row.listId row (Table.find?_eq_some.mpr ⟨hrow, rfl⟩)
    obtain ⟨j, args, hhead, hargs, hlist, hsub⟩ := hcomposed.published_as
    refine ⟨j, args, hargs, ?_, hsub.symm⟩
    rw [← hlist]
    exact List.mem_of_mem_head? hhead
  · rintro ⟨j, args, hargs, hj, rfl⟩
    cases hrow : l.world.db.rows.find? args.listId with
    | none =>
        rw [h.absent _ hrow] at hj
        cases hj
    | some row =>
        refine ⟨row, (Table.find?_eq_some.mp hrow).1, ?_⟩
        exact ((h.row _ row hrow).publisher_unique hj hargs).2

/-- What `list_uris` makes of the answer of the repository. -/
def listed : Except StatusListError (List String) → Except Failure Value
  | .error e => .error (.statusList (.error e))
  | .ok uris => .ok (.uris uris)

theorem serve_listUris (app : AppState) :
    Task.listUris.serve app = .call (.store .listUris) (fun r => .ret (listed r)) := by
  refine congrArg (Prog.call _) (funext fun r => ?_)
  cases r <;> rfl

/-- **The aggregation is complete and sound.**  In every run of any tasks over either
adapter, the URIs that an aggregation request is answered with are strictly ascending,
and they are exactly those under which a list had been published when the rows were
scanned: none is missing that was published before the request, none is listed that
was not published, and updates never change them.  On a database the order is that of a
binary collation. -/
theorem aggregation_lists_publications (d : Deployment) (hcache : d.cache.Faithful)
    (tasks : Nat → Task) {w : World} (hrows : ∀ r, r ∉ w.db.rows)
    (hhistory : ∀ s, s ∉ w.db.history) (hcaches : ∀ k record, record ∉ w.caches k)
    {t : List PortEvent} {c : Pool Nat Port Port.Answer (Except Failure Value) World}
    (hrun : Run d.env (d.start tasks w) t c) {i : Nat} (htask : tasks i = .listUris)
    {uris : List String} (hret : c.threads i = .ret (.ok (.uris uris))) :
    ∃ t₁ t₂, t = t₁ ++ ⟨i, .store .listUris, .ok uris⟩ :: t₂ ∧ uris.Pairwise (· < ·) ∧
      ∀ uri, uri ∈ uris ↔ PublishedAs d tasks t₁ uri := by
  have hstart : (d.start tasks w).threads i =
      .call (.store .listUris) (fun r => .ret (listed r)) := by
    rw [Deployment.start_thread htask (fun _ => nofun), serve_listUris]
  have hmem : ⟨i, .store .listUris, .ok uris⟩ ∈ t := by
    rcases hrun.asked_once hstart with hidle | ⟨r, hmem, hended⟩
    · rw [hidle, hstart] at hret
      cases hret
    · rw [hended] at hret
      cases r with
      | error e => cases hret
      | ok uris' =>
          cases hret
          exact hmem
  obtain ⟨t₁, t₂, rfl⟩ := List.append_of_mem hmem
  obtain ⟨c₁, hrun₁, hrest⟩ := hrun.split
  obtain ⟨c₂, hstep, _⟩ := hrest.uncons
  obtain ⟨locals, h, _⟩ := Provenance.run hcache tasks hrows hhistory hcaches hrun₁
  cases hstep with
  | call _ henv =>
      obtain ⟨db', hanswers, _⟩ := henv
      obtain ⟨hsorted, huris⟩ := Backend.answers_listUris hanswers
      refine ⟨t₁, t₂, rfl, hsorted, ?_⟩
      intro uri
      rw [huris uri]
      exact h.stored_uris uri

/-- Calls 0 and 1 publish a list each, call 2 updates the first of them, every other call
asks for the aggregation. -/
def publishTwoThenAggregate : Nat → Task
  | 0 => .putStatuses (some "Bearer header.claims.signature") "second" [⟨1, .invalid⟩]
  | 1 => .putStatuses (some "Bearer header.claims.signature") "first" [⟨0, .valid⟩]
  | 2 => .patchStatuses (some "Bearer header.claims.signature") "second" [⟨1, .suspended⟩]
  | _ => .listUris

/-- The URIs of the two lists, as they are sorted. -/
def twoUris : List String :=
  ["https://status.example.com/api/v1/status-lists/first",
    "https://status.example.com/api/v1/status-lists/second"]

/-- The theorem at an aggregation after two publications and an update over HTTP. -/
theorem aggregation_lists_publications_sample :
    let d := sampleDeployment true
    let played := d.play publishTwoThenAggregate emptyWorld
      (turns 15 [0, 0, 0, 0, 0, 1, 1, 1, 1, 1, 2, 2, 2, 2, 2, 2, 2, 3])
    landedCalls "second" played.1 = [0, 2] ∧ landedCalls "first" played.1 = [1] ∧
      (played.2.threads 3).result? = some (.ok (.uris twoUris)) ∧
      ∃ t₁ t₂, played.1 = t₁ ++ ⟨3, .store .listUris, .ok twoUris⟩ :: t₂ ∧
        twoUris.Pairwise (· < ·) ∧
        ∀ uri, uri ∈ twoUris ↔ PublishedAs d publishTwoThenAggregate t₁ uri := by
  intro d played
  have hlanded : landedCalls "second" played.1 = [0, 2] ∧ landedCalls "first" played.1 = [1] := by
    decide +kernel
  have hret : (played.2.threads 3).result? = some (.ok (.uris twoUris)) := by
    decide +kernel
  exact ⟨hlanded.1, hlanded.2, hret, aggregation_lists_publications d MemoryCache.faithful
    publishTwoThenAggregate Table.not_mem_empty Table.not_mem_empty (fun _ => Table.not_mem_empty)
    (d.play_run rfl publishTwoThenAggregate emptyWorld _) rfl (Prog.eq_ret_of_result? hret)⟩

end StatusListServer
