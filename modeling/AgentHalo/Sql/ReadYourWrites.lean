import AgentHalo.Engine.Orderly
import AgentHalo.Sql.Atomicity
import AgentHalo.Sql.Immutability
import AgentHalo.Sql.KeyRow

/-!
# Reading your own writes

`INSERT` has two paths. A typed literal goes through `put_typed`; an unsigned integer takes the older path, which registers
the key and queues the word and leaves the tag and the payload as they are. `SELECT` puts the row together from the tag,
the payload and the newest cell. When the row shows what was inserted is told by `readsYourWrites_iff`, in every executor
state that can be reached; the invariant it rests on is `Orderly`.
-/

namespace AgentHalo.Sql

open Engine Engine.NucleusDb
open Store (TypedValue TypeTag TypeMap KeyMap BlobStore)
open Store.TypedValue (decode)

variable {P : Platform} {env : SqlEnv}

namespace SqlExecutor

/-! ### States that can be reached -/

variable (env) in
/-- The executors on databases that were opened and used: by commands and statements of scripts, by other clients of the
engine between two executors, and by the persistence layer, which restores the key map, the types and the payloads as
they were recorded. -/
inductive Reachable : SqlExecutor P → Prop where
  | opened {initial : State} {db : NucleusDb P} (h : FreshlyBuilt initial db) (clockReads : Nat) :
      Reachable (SqlExecutor.new db clockReads)
  | command {ex : SqlExecutor P} {sql : String} {out : Outcome P} (h : Reachable ex)
      (hcustom : ex.executeCustom env sql = some out) : Reachable out.2
  | statement {ex : SqlExecutor P} (h : Reachable ex) (stmt : Statement) : Reachable (executeStatement env stmt ex).2
  | client {ex : SqlExecutor P} (h : Reachable ex) (op : DbOp P) (clockReads : Nat) :
      Reachable (SqlExecutor.new (ex.db.applyOp op) clockReads)
  | registered {ex : SqlExecutor P} (h : Reachable ex) (key : String) (clockReads : Nat) :
      Reachable (SqlExecutor.new { ex.db with keymap := (ex.db.keymap.getOrCreate key).2 } clockReads)
  | maintained {ex : SqlExecutor P} (h : Reachable ex) (now clockReads : Nat) :
      Reachable (SqlExecutor.new { ex.db with blobStore := ex.db.blobStore.applyTimeMaintenance now } clockReads)
  | restored {ex : SqlExecutor P} {db : NucleusDb P} (h : Reachable ex) (hkeymap : db.keymap = ex.db.keymap)
      (htypes : db.typeMap = ex.db.typeMap) (hblobs : db.blobStore = ex.db.blobStore) (clockReads : Nat) :
      Reachable (SqlExecutor.new db clockReads)

theorem Reachable.orderly {ex : SqlExecutor P} (h : Reachable env ex) : Orderly ex.db := by
  induction h with
  | opened hfresh => exact hfresh.orderly
  | command _ hcustom ih => exact executeCustom_keeps orderly_invariant ih hcustom
  | statement _ stmt ih => exact executeStatement_keeps orderly_invariant env ih stmt
  | client _ op _ ih => exact orderly_invariant.applyOp ih op
  | registered _ key _ ih => exact ih.getOrCreate key
  | maintained _ now _ ih => exact ih.maintained now
  | restored _ hkeymap htypes hblobs _ ih => exact ih.of_same hkeymap htypes hblobs

end SqlExecutor

/-! ### The row after an INSERT -/

/-- The stored form of the value is read back as a value that shows the same text. -/
def ShownBack (key : String) (value : TypedValue P) : Prop :=
  ∃ typed : TypedValue P, decode value.tag (value.encode key).1 (value.encode key).2 = .ok typed ∧
    typed.displayString = value.displayString

/-- Every value does that the platform round-trips: null, integers, booleans, texts and bytes without condition, floats,
vectors and JSON by the codecs of the platform. -/
theorem ShownBack.of_roundTrips (key : String) {value : TypedValue P} (h : value.RoundTrips) : ShownBack key value :=
  ⟨value, TypedValue.decode_encode key value h, rfl⟩

namespace TypedInsert

def key : TypedInsert P → String
  | .typed key _ => key
  | .legacyU64 key _ => key

def cell : TypedInsert P → UInt64
  | .typed key value => (value.encode key).1
  | .legacyU64 _ value => value

/-- The inserted value with its own type. An unsigned integer is an integer. -/
def row : TypedInsert P → List String
  | .typed key value => [key, value.displayString, value.tag.asStr]
  | .legacyU64 key value => [key, toString value, TypeTag.integer.asStr]

def typesAfter (db : NucleusDb P) : TypedInsert P → TypeMap
  | .typed key value => db.typeMap.set key value.tag
  | .legacyU64 _ _ => db.typeMap

def payloadsAfter (db : NucleusDb P) (clock : Clock) : TypedInsert P → BlobStore P.f64
  | .typed key value => blobsAfter db key value clock
  | .legacyU64 _ _ => db.blobStore

/-- The typed write is of a value that reads back and fits into the payload store; the untyped one finds the integer tag
and has no sign bit. -/
def Lands (db : NucleusDb P) : TypedInsert P → Prop
  | .typed key value =>
    ShownBack key value ∧ ∀ data, (value.encode key).2 = some data → BlobStore.Fits db.blobStore key data
  | .legacyU64 key value => db.typeMap.get key = .integer ∧ value.toNat < 2 ^ 63

theorem typesAfter_typed (db : NucleusDb P) (key : String) (value : TypedValue P) :
    ((TypedInsert.typed key value).typesAfter db).get key = value.tag :=
  (TypeMap.get_set db.typeMap key key value.tag).trans (if_pos rfl)

theorem typesAfter_other (db : NucleusDb P) (request : TypedInsert P) {other : String} (hne : other ≠ request.key) :
    (request.typesAfter db).get other = db.typeMap.get other := by
  cases request with
  | typed key value => exact (TypeMap.get_set db.typeMap key other value.tag).trans (if_neg hne.symm)
  | legacyU64 key value => rfl

end TypedInsert

namespace SqlExecutor

/-- What an accepted `INSERT` does to everything a reader looks at. -/
structure Inserted (clock : Clock) (request : TypedInsert P) (ex ex' : SqlExecutor P) : Prop where
  keymap : ex'.db.keymap = (ex.db.keymap.getOrCreate request.key).2
  typeMap : ex'.db.typeMap = request.typesAfter ex.db
  blobStore : ex'.db.blobStore = request.payloadsAfter ex.db clock
  state : ex'.db.state = ex.db.state
  pendingWrites : ex'.pendingWrites =
    ex.pendingWrites ++ [((ex.db.keymap.getOrCreate request.key).1, request.cell)]

theorem inserted_of_ok {ex : SqlExecutor P} {ins : Insert} {request : TypedInsert P} {message : String}
    (hrequest : insertRequest P ins = some request) (hok : (ex.executeInsert env ins).1 = .ok message) :
    Inserted (nextClock env ex) request ex (ex.executeInsert env ins).2 := by
  cases request with
  | legacyU64 key value =>
    obtain ⟨message', hrun⟩ := executeInsert_of_legacy env ex hrequest
    rw [hrun]
    exact ⟨rfl, rfl, rfl, rfl, rfl⟩
  | typed key value =>
    by_cases hrejects : RejectsVector ex.db value
    · cases value with
      | vector dims =>
        obtain ⟨e, hput⟩ := putTypedNow_of_rejected env ex key hrejects
        obtain ⟨message', hrun⟩ := executeInsert_of_rejected hrequest hput
        rw [hrun] at hok
        cases hok
      | null | integer | float | bool | text | json | bytes => cases hrejects
    · have hput := putTyped_of_accepted ex.db key value (nextClock env ex) hrejects
      obtain ⟨-, -, hstate, hkeymap, htypes, hblobs⟩ := putTyped_ok hput
      obtain ⟨message', hrun⟩ := executeInsert_of_typed hrequest (putTypedNow_of_accepted env ex key hrejects)
      rw [hrun]
      exact ⟨hkeymap, htypes, hblobs, hstate, rfl⟩

namespace Inserted

variable {clock : Clock} {request : TypedInsert P} {ex ex' : SqlExecutor P}

theorem visibleCell (h : Inserted clock request ex ex') (idx : Nat) :
    ex'.visibleCell idx =
      if (ex.db.keymap.getOrCreate request.key).1 = idx then request.cell else ex.visibleCell idx := by
  rw [visibleCell_eq, h.pendingWrites, h.state, Writes.last_concat, visibleCell_eq]
  split_ifs
  · rfl
  · rfl

theorem decode_self (h : Inserted clock request ex ex') :
    decode (P := P) (ex'.db.typeMap.get request.key)
        (ex'.visibleCell (ex.db.keymap.getOrCreate request.key).1) (BlobStore.get ex'.db.blobStore request.key) =
      decode ((request.typesAfter ex.db).get request.key) request.cell
        (BlobStore.get (request.payloadsAfter ex.db clock) request.key) := by
  rw [h.typeMap, h.blobStore, h.visibleCell, if_pos rfl]

theorem get_self (h : Inserted clock request ex ex') :
    ex'.db.keymap.get request.key = some (ex.db.keymap.getOrCreate request.key).1 := by
  rw [h.keymap]
  exact KeyMap.get_getOrCreate_self _ _

theorem shownRow_other (h : Inserted clock request ex ex') (hsound : ex.db.keymap.Sound) {other : String}
    (hne : other ≠ request.key) (hblob : BlobStore.get (request.payloadsAfter ex.db clock) other =
      BlobStore.get ex.db.blobStore other) : ex'.shownRow other = ex.shownRow other := by
  refine shownRow_congr ?_ ?_ ?_ ?_
  · rw [h.keymap]
    exact KeyMap.get_getOrCreate_other _ hne
  · intro idx hidx
    rw [h.visibleCell, if_neg (hsound.getOrCreate_ne hne hidx)]
  · rw [h.typeMap]
    exact request.typesAfter_other ex.db hne
  · rw [h.blobStore]
    exact hblob

end Inserted

/-! ### The property -/

/-- The written key shows one row, the inserted one, and every other key the row it had. -/
structure Shows (request : TypedInsert P) (ex ex' : SqlExecutor P) : Prop where
  own : ex'.executeSelect (selectKey request.key) = .rows [colKey, colValue, colType] [request.row]
  others : ∀ other, other ≠ request.key → ex'.executeSelect (selectKey other) = ex.executeSelect (selectKey other)

/-- The write is read back right after the `INSERT` and right after a `COMMIT` that succeeds. -/
def ReadsYourWrites (env : SqlEnv) (ex : SqlExecutor P) (ins : Insert) (request : TypedInsert P) : Prop :=
  Shows request ex (ex.executeInsert env ins).2 ∧
    ∀ message, ((ex.executeInsert env ins).2.flushCommit env).1 = some (.ok message) →
      Shows request ex ((ex.executeInsert env ins).2.flushCommit env).2

theorem Shows.flushCommit {request : TypedInsert P} {ex ex' : SqlExecutor P} {message : String}
    (h : Shows request ex ex') (hok : (ex'.flushCommit env).1 = some (.ok message)) :
    Shows request ex (ex'.flushCommit env).2 := by
  have hview := flushCommit_sameView hok
  constructor
  · rw [hview.executeSelect (selectKey_plain P _)]
    exact h.own
  · intro other hne
    rw [hview.executeSelect (selectKey_plain P _)]
    exact h.others other hne

variable {key : String}

namespace Inserted

variable {clock : Clock} {request : TypedInsert P} {ex ex' : SqlExecutor P}

variable {value : TypedValue P}

theorem decode_typed (h : Inserted clock (.typed key value) ex ex')
    (hfits : ∀ data, (value.encode key).2 = some data → BlobStore.Fits ex.db.blobStore key data) :
    decode (P := P) (ex'.db.typeMap.get key) (ex'.visibleCell (ex.db.keymap.getOrCreate key).1)
        (BlobStore.get ex'.db.blobStore key) =
      decode value.tag (value.encode key).1 (value.encode key).2 := by
  have hdecode := h.decode_self
  dsimp only [TypedInsert.key, TypedInsert.cell, TypedInsert.payloadsAfter] at hdecode
  rw [TypedInsert.typesAfter_typed, get_blobsAfter_self ex.db key value clock hfits] at hdecode
  exact hdecode

theorem typeMap_typed (h : Inserted clock (.typed key value) ex ex') :
    ex'.db.typeMap.get key = value.tag := by
  rw [h.typeMap]
  exact TypedInsert.typesAfter_typed ex.db key value

theorem shows_typed (h : Inserted clock (.typed key value) ex ex') (hsound : ex.db.keymap.Sound) (hback : ShownBack key value)
    (hfits : ∀ data, (value.encode key).2 = some data → BlobStore.Fits ex.db.blobStore key data) :
    Shows (.typed key value) ex ex' := by
  obtain ⟨typed, hdecode, hdisplay⟩ := hback
  constructor
  · rw [executeSelect_selectKey]
    refine (shownRow_of_ok h.get_self (visibleTyped_of_ok ((h.decode_typed hfits).trans hdecode))).trans ?_
    dsimp only [TypedInsert.key, TypedInsert.row]
    rw [h.typeMap_typed, hdisplay]
  · intro other hne
    rw [executeSelect_selectKey, executeSelect_selectKey]
    exact h.shownRow_other hsound hne (get_blobsAfter_other ex.db hne.symm value clock hfits)

theorem shownBack_of_shows (h : Inserted clock (.typed key value) ex ex')
    (hfits : ∀ data, (value.encode key).2 = some data → BlobStore.Fits ex.db.blobStore key data)
    (hshows : Shows (.typed key value) ex ex') : ShownBack key value := by
  have hown := hshows.own
  rw [executeSelect_selectKey] at hown
  have hread := h.decode_typed hfits
  cases hdecode : decode (P := P) value.tag (value.encode key).1 (value.encode key).2 with
  | error e =>
    have herror := shownRow_of_error h.get_self (visibleTyped_of_error (hread.trans hdecode))
    rw [herror] at hown
    cases hown
  | ok typed =>
    have hrow := shownRow_of_ok h.get_self (visibleTyped_of_ok (hread.trans hdecode))
    rw [hrow] at hown
    simp only [SqlResult.rows.injEq, TypedInsert.row, TypedInsert.key, List.cons.injEq, and_true, true_and] at hown
    exact ⟨typed, hdecode, hown.1⟩

variable {value : UInt64}

theorem shownRow_legacy (h : Inserted clock (.legacyU64 key value) ex ex') (htag : ex.db.typeMap.get key = .integer) :
    ex'.shownRow key = .rows [colKey, colValue, colType] [[key, toString value.toInt64, TypeTag.integer.asStr]] := by
  have hdecode := h.decode_self
  dsimp only [TypedInsert.key, TypedInsert.cell, TypedInsert.typesAfter] at hdecode
  rw [htag] at hdecode
  have htag' : ex'.db.typeMap.get key = .integer := by
    rw [h.typeMap]
    exact htag
  refine (shownRow_of_ok h.get_self (visibleTyped_of_ok hdecode)).trans ?_
  dsimp only [TypedInsert.key, TypedValue.displayString]
  rw [htag']

theorem shows_legacy (h : Inserted clock (.legacyU64 key value) ex ex')
    (hsound : ex.db.keymap.Sound) (htag : ex.db.typeMap.get key = .integer) (hsign : value.toNat < 2 ^ 63) :
    Shows (.legacyU64 key value) ex ex' := by
  constructor
  · rw [executeSelect_selectKey]
    refine (h.shownRow_legacy htag).trans ?_
    rw [(Text.toString_toInt64_eq_iff value).mpr hsign]
    rfl
  · intro other hne
    rw [executeSelect_selectKey, executeSelect_selectKey]
    exact h.shownRow_other hsound hne rfl

theorem lands_of_shows_legacy (h : Inserted clock (.legacyU64 key value) ex ex')
    (hshows : Shows (.legacyU64 key value) ex ex') :
    ex.db.typeMap.get key = .integer ∧ value.toNat < 2 ^ 63 := by
  have hown := hshows.own
  rw [executeSelect_selectKey] at hown
  have htag : ex.db.typeMap.get key = .integer := by
    obtain ⟨typed, hrow⟩ := shownRow_eq_rows hown
    simp only [TypedInsert.row, TypedInsert.key, List.cons.injEq, and_true, true_and] at hrow
    have hsame : ex'.db.typeMap.get key = ex.db.typeMap.get key := by
      rw [h.typeMap]
      rfl
    rw [hsame] at hrow
    cases htype : ex.db.typeMap.get key with
    | integer => rfl
    | _ => simp [htype, TypeTag.asStr] at hrow
  refine ⟨htag, ?_⟩
  have hrows := (h.shownRow_legacy htag).symm.trans hown
  simp only [SqlResult.rows.injEq, TypedInsert.row, List.cons.injEq, and_true, true_and] at hrows
  exact (Text.toString_toInt64_eq_iff value).mp hrows

end Inserted

/-! ### A payload that is lost -/

variable {tag : TypeTag}

theorem decode_without_payload (hblob : tag.isBlob = true) : ∃ e : String,
    (∀ cell, decode (P := P) tag cell none = .error e) ∧
      ∀ cell data, decode (P := P) tag cell (some data) ≠ .error e := by
  have hletter : ∀ {a b : String} {c d : Char}, a.toList.head? = some c → b.toList.head? = some d → c ≠ d → a ≠ b := by
    rintro a b c d ha hb hne rfl
    exact hne (Option.some.inj (ha.symm.trans hb))
  cases tag with
  | null | integer | float | bool => cases hblob
  | text =>
    refine ⟨"missing blob for Text value", fun _ => rfl, ?_⟩
    intro cell data h
    unfold decode at h
    dsimp only at h
    split at h
    · cases h
    · exact hletter (c := 'i') (d := 'm') (by simp) (by simp) (by decide) (Except.error.inj h)
  | json =>
    refine ⟨"missing blob for Json value", fun _ => rfl, ?_⟩
    intro cell data h
    unfold decode at h
    dsimp only at h
    split at h
    · cases h
    · exact hletter (c := 'i') (d := 'm') (by simp) (by simp) (by decide) (Except.error.inj h)
  | bytes =>
    refine ⟨"missing blob for Bytes value", fun _ => rfl, ?_⟩
    intro cell data h
    cases h
  | vector =>
    refine ⟨"missing blob for Vector value", fun _ => rfl, ?_⟩
    intro cell data h
    unfold decode Store.bytesToVector at h
    dsimp only at h
    split at h
    · exact hletter (c := 'v') (d := 'm') (by simp) (by simp) (by decide) (Except.error.inj h)
    · cases h

theorem shownRow_without_payload (key : String) (hblob : tag.isBlob = true) : ∃ message : String,
    (∀ ex : SqlExecutor P, (ex.db.keymap.get key).isSome → ex.db.typeMap.get key = tag →
      BlobStore.get ex.db.blobStore key = none → ex.shownRow key = .error message) ∧
    ∀ ex : SqlExecutor P, ex.db.typeMap.get key = tag → (BlobStore.get ex.db.blobStore key).isSome →
      ex.shownRow key ≠ .error message := by
  obtain ⟨e, hnone, hsome⟩ := decode_without_payload (P := P) hblob
  refine ⟨"typed decode failed for key '" ++ key ++ "': " ++ e, ?_, ?_⟩
  · intro ex hkey htag hgone
    obtain ⟨idx, hidx⟩ := Option.isSome_iff_exists.mp hkey
    refine shownRow_of_error hidx (visibleTyped_of_error ?_)
    rw [htag, hgone]
    exact hnone _
  · intro ex htag hthere hshown
    obtain ⟨data, hdata⟩ := Option.isSome_iff_exists.mp hthere
    cases hidx : ex.db.keymap.get key with
    | none =>
      rw [shownRow_of_absent hidx] at hshown
      cases hshown
    | some idx =>
      cases hdecode : decode (P := P) (ex.db.typeMap.get key) (ex.visibleCell idx)
          (BlobStore.get ex.db.blobStore key) with
      | ok typed =>
        rw [shownRow_of_ok hidx (visibleTyped_of_ok hdecode)] at hshown
        cases hshown
      | error e' =>
        rw [shownRow_of_error hidx (visibleTyped_of_error hdecode)] at hshown
        rw [htag, hdata] at hdecode
        apply hsome _ _ (hdecode.trans ?_)
        exact congrArg Except.error (String.append_right_inj _ |>.mp (SqlResult.error.inj hshown))

theorem Inserted.fits_of_shows {value : TypedValue P} (h : Inserted clock (.typed key value) ex ex')
    (horderly : Orderly ex.db) (hshows : Shows (.typed key value) ex ex') (data : Bytes)
    (hdata : (value.encode key).2 = some data) :
    BlobStore.Fits ex.db.blobStore key data := by
  by_contra hfull
  obtain ⟨lost, hgone, hlost⟩ := BlobStore.put_lost horderly.scored clock.blob hfull
  have hafter : BlobStore.get ex'.db.blobStore lost = none := by
    rw [h.blobStore]
    unfold TypedInsert.payloadsAfter blobsAfter
    dsimp only
    rw [hdata]
    exact hgone
  by_cases heq : lost = key
  · -- the payload just written is gone, and the key's own row is an error
    subst heq
    have hblob : value.tag.isBlob = true := by
      rw [isBlob_tag lost, hdata]
      rfl
    have htag : ex'.db.typeMap.get lost = value.tag := h.typeMap_typed
    obtain ⟨message, herror, -⟩ := shownRow_without_payload (P := P) lost hblob
    have hown := hshows.own
    rw [executeSelect_selectKey] at hown
    have hkey : (ex'.db.keymap.get lost).isSome := Option.isSome_of_eq_some h.get_self
    rw [show (TypedInsert.typed lost value).key = lost from rfl, herror ex' hkey htag hafter] at hown
    cases hown
  · -- another key lost its payload, and its row was not that error before
    have hthere := hlost.resolve_left heq
    obtain ⟨hkey, hblob⟩ := horderly.payload lost hthere
    obtain ⟨message, herror, hbefore⟩ := shownRow_without_payload (P := P) lost hblob
    have hother := hshows.others lost heq
    rw [executeSelect_selectKey, executeSelect_selectKey] at hother
    have hkey' : (ex'.db.keymap.get lost).isSome := by
      rw [h.keymap]
      exact Orderly.isSome_getOrCreate _ hkey
    have htag' : ex'.db.typeMap.get lost = ex.db.typeMap.get lost := by
      rw [h.typeMap]
      exact TypedInsert.typesAfter_other ex.db (.typed key value) heq
    rw [herror ex' hkey' htag' hafter] at hother
    exact hbefore ex rfl hthere hother.symm

theorem Inserted.shows_iff {request : TypedInsert P} (h : Inserted clock request ex ex') (horderly : Orderly ex.db) :
    Shows request ex ex' ↔ request.Lands ex.db := by
  cases request with
  | typed key value =>
    constructor
    · intro hshows
      have hfits := h.fits_of_shows horderly hshows
      exact ⟨h.shownBack_of_shows hfits hshows, hfits⟩
    · rintro ⟨hback, hfits⟩
      exact h.shows_typed horderly.keymap hback hfits
  | legacyU64 key value =>
    exact ⟨h.lands_of_shows_legacy, fun hlands => h.shows_legacy horderly.keymap hlands.1 hlands.2⟩

/-- **When an `INSERT` is read back.** Take any reachable executor and any `INSERT` it accepts. The `SELECT` of its key
shows exactly the inserted value with its own type, right after the `INSERT` and after a `COMMIT` that succeeds, and the
row of every other key stays as it was, exactly when the write lands: a typed value is one that the platform's codecs
read back, with no payload or one that fits into the payload store, and an unsigned integer meets a key whose tag is
`integer` and is at most `i64::MAX`. -/
theorem readsYourWrites_iff (env : SqlEnv) {ex : SqlExecutor P} (hreach : Reachable env ex) {ins : Insert}
    {request : TypedInsert P} {message : String} (hrequest : insertRequest P ins = some request)
    (hok : (ex.executeInsert env ins).1 = .ok message) :
    ReadsYourWrites env ex ins request ↔ request.Lands ex.db := by
  have hinserted := inserted_of_ok hrequest hok
  have hiff := hinserted.shows_iff hreach.orderly
  constructor
  · intro hreads
    exact hiff.mp hreads.1
  · intro hlands
    have hshows := hiff.mpr hlands
    exact ⟨hshows, fun _ hcommit => hshows.flushCommit hcommit⟩

def freshExecutor : SqlExecutor .reference := SqlExecutor.new singleWitnessDb 0

theorem freshExecutor_reachable : Reachable parsedEnv freshExecutor := .opened singleWitnessDb_freshlyBuilt 0

theorem insertWorld_accepted :
    ∃ message, (freshExecutor.executeInsert parsedEnv insertWorldStatement).1 = .ok message := by
  obtain ⟨message, hrun⟩ := executeInsert_of_typed insertRequest_insertWorld
    (putTypedNow_of_accepted parsedEnv freshExecutor "a" id)
  exact ⟨message, by rw [hrun]⟩

/-- The text `world` inserted into an empty database is read back. -/
theorem readsYourWrites_world :
    ReadsYourWrites parsedEnv freshExecutor insertWorldStatement (.typed "a" (.text "world")) := by
  obtain ⟨message, hok⟩ := insertWorld_accepted
  refine (readsYourWrites_iff parsedEnv freshExecutor_reachable insertRequest_insertWorld hok).mpr ?_
  refine ⟨ShownBack.of_roundTrips "a" trivial, ?_⟩
  rintro data ⟨⟩
  exact emptyBlobs_fits _

/-! ### An integer inserted over a text -/

def insertFiveStatement : Insert where
  table := .tableName [.identifier ⟨tableName⟩]
  columns := [⟨colKey⟩, ⟨colValue⟩]
  source := some ⟨.values [[.value (.string "a"), .value (.number "5")]]⟩
  assignments := []

theorem insertRequest_insertFive :
    insertRequest .reference insertFiveStatement = some (.legacyU64 "a" 5) := by
  have htarget : insertTargetsData insertFiveStatement = true := Text.eqIgnoreAsciiCase_self tableName
  have hparse : Text.parseU64 "5" = some 5 := by
    unfold Text.parseU64
    simp only [String.reduceToList]
    decide
  have hextract := extractInsertTyped_pair .reference "a" (.value (.number "5"))
  dsimp only [insertValue, tryExtractVector] at hextract
  rw [hparse] at hextract
  have hcolumns : extractInsertTyped .reference ⟨.values [[.value (.string "a"), .value (.number "5")]]⟩
      [⟨colKey⟩, ⟨colValue⟩] = .ok (.legacyU64 "a" 5) := hextract
  unfold insertRequest
  rw [htarget, if_pos (by rfl)]
  exact congrArg Except.toOption hcolumns

/-- The executor after the text `world` was inserted under the key `a`. -/
def worldExecutor : SqlExecutor .reference :=
  (executeStatement parsedEnv (.insert insertWorldStatement) freshExecutor).2

theorem worldExecutor_reachable : Reachable parsedEnv worldExecutor :=
  freshExecutor_reachable.statement (.insert insertWorldStatement)

theorem worldExecutor_text : worldExecutor.db.typeMap.get "a" = .text ∧
    BlobStore.get worldExecutor.db.blobStore "a" = some (Text.utf8 "world") := by
  obtain ⟨message, hok⟩ := insertWorld_accepted
  have h : Inserted _ _ freshExecutor worldExecutor := inserted_of_ok insertRequest_insertWorld hok
  constructor
  · exact h.typeMap_typed
  · rw [h.blobStore]
    refine get_blobsAfter_self freshExecutor.db "a" (.text "world") _ ?_
    rintro data ⟨⟩
    exact emptyBlobs_fits _

/-- An integer inserted over the text is accepted and queued, and the row still shows the text. -/
theorem insert_five_shows_world : ∃ message, Reachable parsedEnv worldExecutor ∧
    (worldExecutor.executeInsert parsedEnv insertFiveStatement).1 = .ok message ∧
      (worldExecutor.executeInsert parsedEnv insertFiveStatement).2.executeSelect (selectKey "a") =
        .rows ["key", "value", "type"] [["a", "world", "text"]] ∧
      ¬ ReadsYourWrites parsedEnv worldExecutor insertFiveStatement (.legacyU64 "a" 5) := by
  obtain ⟨message, hrun⟩ := executeInsert_of_legacy parsedEnv worldExecutor insertRequest_insertFive
  have hok : (worldExecutor.executeInsert parsedEnv insertFiveStatement).1 = .ok message := by rw [hrun]
  have hinserted := inserted_of_ok insertRequest_insertFive hok
  obtain ⟨htag, hpayload⟩ := worldExecutor_text
  refine ⟨message, worldExecutor_reachable, hok, ?_, ?_⟩
  · have hdecode := hinserted.decode_self
    dsimp only [TypedInsert.key, TypedInsert.cell, TypedInsert.typesAfter, TypedInsert.payloadsAfter] at hdecode
    rw [htag, hpayload] at hdecode
    have htext : decode (P := Platform.reference) .text 5 (some (Text.utf8 "world")) =
        .ok (.text "world") := by
      unfold decode
      dsimp only
      rw [Store.fromUtf8_utf8]
    rw [executeSelect_selectKey]
    refine (shownRow_of_ok hinserted.get_self (visibleTyped_of_ok (hdecode.trans htext))).trans ?_
    rw [hinserted.typeMap]
    dsimp only [TypedInsert.key, TypedInsert.typesAfter]
    rw [htag]
    rfl
  · intro hreads
    have hlands := hinserted.lands_of_shows_legacy hreads.1
    rw [htag] at hlands
    exact absurd hlands.1 (by decide)

end SqlExecutor

end AgentHalo.Sql
