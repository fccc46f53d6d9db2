import VaultplaneGateway.TransitionRuns

/-!
# Replicas behind conditional requests

A source publishes documents, each with a tag or without one. A replica holds a value and
the tag of the document that the value was made from. It asks for the current document
unless that has its tag, and makes a value from what it gets. Making a value may fail; the
replica then keeps its value and its tag, and will ask again.

A replica never believes itself up to date wrongly if a tag stands for one body only: a
request that gets through brings it to the current document, whatever was published, lost
or refused before.
-/
namespace VaultplaneGateway.ConditionalReplicas
open TransitionRuns

variable {B T V : Type*}

structure Document (B T : Type*) where
  body : B
  tag : Option T

structure Replica (T V : Type*) where
  value : V
  tag : Option T

structure Link (B T V : Type*) where
  source : Document B T
  replica : Replica T V

inductive Event (B T : Type*) where
  | publish (d : Document B T)
  | fetch
  | lost

def Event.document : Event B T → Option (Document B T)
  | .publish d => some d
  | _ => none

/-- The documents that are published on the way. -/
def published (es : List (Event B T)) : List (Document B T) := es.filterMap Event.document

theorem mem_published {d : Document B T} {es : List (Event B T)} (h : .publish d ∈ es) :
    d ∈ published es :=
  List.mem_filterMap.mpr ⟨_, h, rfl⟩

theorem not_publish_mem {es : List (Event B T)} (hquiet : published es = []) (d : Document B T) :
    .publish d ∉ es := by
  intro h
  have := mem_published h
  rw [hquiet] at this
  cases this

/-- A tag stands for one body. -/
def Identifying (docs : List (Document B T)) : Prop :=
  ∀ d ∈ docs, ∀ e ∈ docs, ∀ t, d.tag = some t → e.tag = some t → d.body = e.body

section
variable [DecidableEq T] (make : B → Option V)

/-- The replica has the tag of the document. -/
def Replica.current (r : Replica T V) (d : Document B T) : Bool := r.tag.isSome && r.tag == d.tag

def Replica.fetch (r : Replica T V) (d : Document B T) : Replica T V :=
  if r.current d then r
  else
    match make d.body with
    | some v => ⟨v, d.tag⟩
    | none => r

def next (s : Link B T V) : Event B T → Link B T V
  | .publish d => { s with source := d }
  | .fetch => { s with replica := s.replica.fetch make s.source }
  | .lost => s

/-- The tag of the replica is that of a document from which its value was made. -/
def Faithful (docs : List (Document B T)) (r : Replica T V) : Prop :=
  ∀ t, r.tag = some t → ∃ d ∈ docs, d.tag = some t ∧ make d.body = some r.value

variable {make} {docs : List (Document B T)} {r : Replica T V} {d : Document B T} {v : V}

theorem fetch_faithful (h : Faithful make docs r) (hd : d ∈ docs) :
    Faithful make docs (r.fetch make d) := by
  unfold Replica.fetch
  split_ifs with hcurrent
  · exact h
  · cases hmake : make d.body with
    | none => exact h
    | some v => exact fun t ht => ⟨d, hd, ht, hmake⟩

/-- A request that gets through brings the value of the document. -/
theorem fetch_value (hdocs : Identifying docs) (h : Faithful make docs r) (hd : d ∈ docs)
    (hmake : make d.body = some v) : (r.fetch make d).value = v := by
  unfold Replica.fetch
  split_ifs with hcurrent
  · rw [Replica.current, Bool.and_eq_true, beq_iff_eq] at hcurrent
    obtain ⟨t, ht⟩ := Option.isSome_iff_exists.mp hcurrent.1
    obtain ⟨e, he, htag, hvalue⟩ := h t ht
    have hbody := hdocs e he d hd t htag (by rw [← hcurrent.2, ht])
    rw [hbody, hmake] at hvalue
    exact (Option.some.inj hvalue).symm
  · rw [hmake]

/-- The source and the replica after a run know only documents of the run. -/
theorem run_faithful (s : Link B T V) (es : List (Event B T)) (hsource : s.source ∈ docs)
    (hreplica : Faithful make docs s.replica) (hes : ∀ d ∈ published es, d ∈ docs) :
    (run (next make) s es).source ∈ docs ∧ Faithful make docs (run (next make) s es).replica := by
  refine run_invariant (next make) (fun s => s.source ∈ docs ∧ Faithful make docs s.replica) es ?_ s
    ⟨hsource, hreplica⟩
  intro s e he hs
  cases e with
  | publish d => exact ⟨hes d (mem_published he), hs.2⟩
  | fetch => exact ⟨hs.1, fetch_faithful hs.2 hs.1⟩
  | lost => exact hs

theorem run_source (s : Link B T V) {es : List (Event B T)} (hquiet : published es = []) :
    (run (next make) s es).source = s.source := by
  refine run_frame Link.source (fun t e he => ?_) s
  cases e with
  | publish d => exact (not_publish_mem hquiet d he).elim
  | fetch => rfl
  | lost => rfl

/-- Without a publication a value that was made from the current document stays. -/
theorem run_quiet (s : Link B T V) {es : List (Event B T)} (hquiet : published es = [])
    (hvalue : make s.source.body = some s.replica.value) :
    (run (next make) s es).replica.value = s.replica.value := by
  suffices h : (run (next make) s es).source = s.source ∧
      (run (next make) s es).replica.value = s.replica.value from h.2
  refine run_invariant (next make) (fun t => t.source = s.source ∧ t.replica.value = s.replica.value)
    es ?_ s ⟨rfl, rfl⟩
  intro t e he ht
  cases e with
  | publish d => exact (not_publish_mem hquiet d he).elim
  | fetch =>
      refine ⟨ht.1, ?_⟩
      rw [next, Replica.fetch]
      split_ifs
      · exact ht.2
      · rw [ht.1, hvalue]
  | lost => exact ht

/-- After a request that gets through, and until the next publication, the replica has the
value of the current document, if a value can be made from it. -/
theorem run_converges (s : Link B T V) {es quiet : List (Event B T)} (htag : s.replica.tag = none)
    (hdocs : Identifying (s.source :: published (es ++ .fetch :: quiet)))
    (hquiet : published quiet = [])
    (hmake : make (run (next make) s (es ++ .fetch :: quiet)).source.body = some v) :
    (run (next make) s (es ++ .fetch :: quiet)).replica.value = v := by
  have hall : ∀ d ∈ published es, d ∈ s.source :: published (es ++ .fetch :: quiet) := by
    intro d hd
    rw [published, List.filterMap_append]
    exact List.mem_cons_of_mem _ (List.mem_append_left _ hd)
  have hstart : Faithful make (s.source :: published (es ++ .fetch :: quiet)) s.replica := by
    intro t ht
    rw [htag] at ht
    cases ht
  obtain ⟨hsource, hfaithful⟩ := run_faithful s es List.mem_cons_self hstart hall
  rw [run_append, run_cons] at hmake ⊢
  generalize run (next make) s es = t at hsource hfaithful hmake ⊢
  -- The source at the request is the source at the end.
  rw [run_source (next make t .fetch) hquiet] at hmake
  have hfetch : (next make t .fetch).replica.value = v := fetch_value hdocs hfaithful hsource hmake
  rw [run_quiet (next make t .fetch) hquiet (by rwa [hfetch]), hfetch]

end

end VaultplaneGateway.ConditionalReplicas
