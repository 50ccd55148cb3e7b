import VscpAutomation.Rational
import VscpAutomation.Lib.Runs
/-!
# Reading the configuration

`doLoadConfig` is ten blocks of one shape, run in order (`blocks`). Each reads
its key with `get<bool>()`, so a block that asks for a number never stores
anything (`read_number`), and the block of "write-enable" stores in `m_bDebug`.
`operator>>` stops after the first value, whatever follows it in the file.
`LoadsExactly` states the loader that the documentation describes;
`load_exact_iff` says when the code agrees with it.
-/

namespace VscpAutomation

/-! ## JSON values -/

namespace Json

variable {K : Type}

/-- The member at `key`; a value that is not an object has none. -/
def get? (key : String) : Json K → Option (Json K)
  | .object members => members.lookup key
  | _ => none

def is_boolean : Json K → Bool
  | .boolean _ => true
  | _ => false

def is_number : Json K → Bool
  | .number_integer _ => true
  | .number_unsigned _ => true
  | .number_float _ => true
  | _ => false

/-- `get<bool>()`; `none` where it throws. -/
def getBool : Json K → Option Bool
  | .boolean b => some b
  | _ => none

/-- The boolean at `key`. -/
def boolAt (key : String) (j : Json K) : Option Bool := (j.get? key).bind getBool

theorem getBool_number {v : Json K} (h : v.is_number = true) : v.getBool = none := by
  cases v <;> first | rfl | cases h

theorem is_boolean_iff {v : Json K} : v.is_boolean = true ↔ ∃ b, v.getBool = some b := by
  cases v <;> simp [is_boolean, getBool]

section
variable [Field K] [LinearOrder K] [FloorRing K]

/-- The value of a number. -/
def number : Json K → Option K
  | .number_integer i => some i
  | .number_unsigned n => some n
  | .number_float x => some x
  | _ => none

/-- The number at `key`. -/
def numberAt (key : String) (j : Json K) : Option K := (j.get? key).bind number

/-- The number at `key`, if a byte holds it. -/
def byteAt (key : String) (j : Json K) : Option UInt8 :=
  (j.numberAt key).bind fun x => if 0 ≤ x ∧ x ≤ 255 then some (UInt8.ofNat ⌊x⌋.toNat) else none

end

end Json

namespace CAutomation

variable {K : Type}

/-! ## The blocks -/

/-- One block of `doLoadConfig`. -/
structure Block (K : Type) where
  key : String
  test : Json K → Bool
  /-- What the line says is missing when `test` fails. -/
  missing : String
  store : Bool → CAutomation K → CAutomation K

def failedToRead (name : String) : String :=
  "ReadConfig: Failed to read '" ++ name ++ "'. Default will be used."

/-- Run a block: the state, and the lines for LOG_ERR. -/
def Block.read (j : Json K) (s : CAutomation K) (b : Block K) : CAutomation K × List String :=
  match j.get? b.key with
  | some v =>
    if b.test v then
      match v.getBool with
      | some x => (b.store x s, [])
      | none => (s, [failedToRead b.key])
    else (s, [failedToRead b.missing])
  | none => (s, [failedToRead b.missing])

def debugEnable : Block K where
  key := "debug-enable"
  test := Json.is_boolean
  missing := "enable-debug"
  store b s := { s with m_bDebug := b }

/-- Stores in `m_bDebug`. -/
def writeEnable : Block K where
  key := "write-enable"
  test := Json.is_boolean
  missing := "write-debug"
  store b s := { s with m_bDebug := b }

/-- Would store in `m_bDebug`. -/
def zone : Block K where
  key := "zone"
  test := Json.is_number
  missing := "zone"
  store b s := { s with m_bDebug := b }

/-- Would store in `m_bDebug`. -/
def subzone : Block K where
  key := "subzone"
  test := Json.is_number
  missing := "subzone"
  store b s := { s with m_bDebug := b }

def longitude [Field K] : Block K where
  key := "longitude"
  test := Json.is_number
  missing := "longitude"
  store b s := { s with m_longitude := if b then 1 else 0 }

def latitude [Field K] : Block K where
  key := "latitude"
  test := Json.is_number
  missing := "latitude"
  store b s := { s with m_latitude := if b then 1 else 0 }

def sunriseEnable : Block K where
  key := "sunrise-enable"
  test := Json.is_boolean
  missing := "sunrise-debug"
  store b s := { s with m_bSunRiseEvent := b }

def sunriseTwilightEnable : Block K where
  key := "sunrise-twilight-enable"
  test := Json.is_boolean
  missing := "sunrise-twilight-debug"
  store b s := { s with m_bSunRiseTwilightEvent := b }

def sunsetEnable : Block K where
  key := "sunset-enable"
  test := Json.is_boolean
  missing := "sunset-debug"
  store b s := { s with m_bSunSetEvent := b }

def sunsetTwilightEnable : Block K where
  key := "sunset-twilight-enable"
  test := Json.is_boolean
  missing := "sunset-twilight-debug"
  store b s := { s with m_bSunSetTwilightEvent := b }

def blocks [Field K] : List (Block K) :=
  [debugEnable, writeEnable, zone, subzone, longitude, latitude, sunriseEnable, sunriseTwilightEnable,
    sunsetEnable, sunsetTwilightEnable]

/-- What `doLoadConfig` leaves behind. `ret` is an error where an exception
leaves it. -/
structure Loaded (K : Type) where
  ret : Except JsonException Bool
  state : CAutomation K
  log : List String

section
variable [Field K] (E : Env K)

/-- Load the file at `m_path`; `content` is what it holds, empty where it
cannot be opened. -/
def doLoadConfig (content : String) (s : CAutomation K) : Loaded K :=
  match E.readJson content with
  | .error .parse_error => ⟨.ok false, s, ["[vscpl2drv-automation] Failed to parse JSON configuration."]⟩
  -- only parse_error is caught
  | .error .out_of_range => ⟨.error .out_of_range, s, []⟩
  | .ok (j, _) =>
    let r := Runs.run (Block.read j) s blocks
    ⟨.ok true, r.1, r.2⟩

/-- `open`: `created` says whether pthread_create starts the worker thread. -/
def open_ (path : String) (guid : cguid) (content : String) (created : Bool) (s : CAutomation K) : Loaded K :=
  let r := doLoadConfig E content { s with m_guid := guid, m_path := path }
  match r.ret with
  | .error e => ⟨.error e, r.state, r.log⟩
  | .ok loaded =>
    let log := if loaded then r.log
      else r.log ++ ["[vscpl2drv-automation] Failed to load configuration file [" ++ path ++ "]"]
    if created then ⟨.ok true, r.state, log⟩
    else ⟨.ok false, r.state, log ++ ["[vscpl2drv-automation] Unable to start worker thread."]⟩

end

/-! ## What a block stores -/

section
variable (j : Json K) (s : CAutomation K) {b : Block K}

/-- A block for a number reads it as a boolean, which throws. -/
theorem read_number (hb : b.test = Json.is_number) : (b.read j s).1 = s := by
  unfold Block.read
  rw [hb]
  split
  · split
    · rename_i h
      rw [Json.getBool_number h]
    · rfl
  · rfl

/-- A block for a boolean stores the one at its key, if there is one. -/
theorem read_boolean (hb : b.test = Json.is_boolean) (get : CAutomation K → Bool)
    (hget : ∀ s, b.store (get s) s = s) :
    (b.read j s).1 = b.store ((j.boolAt b.key).getD (get s)) s := by
  unfold Block.read Json.boolAt
  rw [hb]
  cases j.get? b.key with
  | none => exact (hget s).symm
  | some v =>
    by_cases h : v.is_boolean = true
    · obtain ⟨x, hx⟩ := Json.is_boolean_iff.1 h
      simp [h, hx]
    · have hx : v.getBool = none :=
        Option.eq_none_iff_forall_ne_some.2 fun x hx => h (Json.is_boolean_iff.2 ⟨x, hx⟩)
      simp [h, hx, hget]

end

/-- What the blocks make of a document. -/
def stored (j : Json K) (s : CAutomation K) : CAutomation K :=
  { s with
    m_bDebug := (j.boolAt "write-enable").getD ((j.boolAt "debug-enable").getD s.m_bDebug)
    m_bSunRiseEvent := (j.boolAt "sunrise-enable").getD s.m_bSunRiseEvent
    m_bSunRiseTwilightEvent := (j.boolAt "sunrise-twilight-enable").getD s.m_bSunRiseTwilightEvent
    m_bSunSetEvent := (j.boolAt "sunset-enable").getD s.m_bSunSetEvent
    m_bSunSetTwilightEvent := (j.boolAt "sunset-twilight-enable").getD s.m_bSunSetTwilightEvent }

theorem blocks_state [Field K] (j : Json K) (s : CAutomation K) : (Runs.run (Block.read j) s blocks).1 = stored j s := by
  simp only [blocks, Runs.run]
  rw [read_boolean j _ (b := sunsetTwilightEnable) rfl (·.m_bSunSetTwilightEvent) fun _ => rfl,
    read_boolean j _ (b := sunsetEnable) rfl (·.m_bSunSetEvent) fun _ => rfl,
    read_boolean j _ (b := sunriseTwilightEnable) rfl (·.m_bSunRiseTwilightEvent) fun _ => rfl,
    read_boolean j _ (b := sunriseEnable) rfl (·.m_bSunRiseEvent) fun _ => rfl,
    read_number j _ (b := latitude) rfl, read_number j _ (b := longitude) rfl,
    read_number j _ (b := subzone) rfl, read_number j _ (b := zone) rfl,
    read_boolean j _ (b := writeEnable) rfl (·.m_bDebug) fun _ => rfl,
    read_boolean j _ (b := debugEnable) rfl (·.m_bDebug) fun _ => rfl]
  rfl

/-- What loading leaves: the state it found, or what the blocks store. -/
theorem doLoadConfig_state [Field K] (E : Env K) (content : String) (s : CAutomation K) :
    (s.doLoadConfig E content).state = s ∨ ∃ j, (s.doLoadConfig E content).state = stored j s := by
  unfold doLoadConfig
  split
  · exact .inl rfl
  · exact .inl rfl
  · rename_i j _ _
    exact .inr ⟨j, blocks_state j s⟩

/-- `open` also sets the id and the path. -/
theorem open_loads [Field K] (E : Env K) (path : String) (guid : cguid) (content : String) (created : Bool)
    (s : CAutomation K) : (s.open_ E path guid content created).state =
      (doLoadConfig E content { s with m_guid := guid, m_path := path }).state := by
  unfold open_
  dsimp only
  split
  · rfl
  · split <;> rfl

/-! ## The reference -/

section
variable [Field K] [LinearOrder K] [FloorRing K] (E : Env K)

/-- Each setting from its own key, unchanged where the key is missing or has
another type. -/
def reference (j : Json K) (s : CAutomation K) : CAutomation K :=
  { s with
    m_bDebug := (j.boolAt "debug-enable").getD s.m_bDebug
    m_bWrite := (j.boolAt "write-enable").getD s.m_bWrite
    m_zone := (j.byteAt "zone").getD s.m_zone
    m_subzone := (j.byteAt "subzone").getD s.m_subzone
    m_longitude := (j.numberAt "longitude").getD s.m_longitude
    m_latitude := (j.numberAt "latitude").getD s.m_latitude
    m_bSunRiseEvent := (j.boolAt "sunrise-enable").getD s.m_bSunRiseEvent
    m_bSunRiseTwilightEvent := (j.boolAt "sunrise-twilight-enable").getD s.m_bSunRiseTwilightEvent
    m_bSunSetEvent := (j.boolAt "sunset-enable").getD s.m_bSunSetEvent
    m_bSunSetTwilightEvent := (j.boolAt "sunset-twilight-enable").getD s.m_bSunSetTwilightEvent }

/-- Loading `content` does what the reference does: it refuses a text that is not
one value with nothing but white space after it. -/
def LoadsExactly (content : String) (s : CAutomation K) : Prop :=
  let r := s.doLoadConfig E content
  match E.readJson content with
  | .ok (j, rest) =>
    if rest.all Char.isWhitespace then r.ret = .ok true ∧ r.state = reference j s
    else r.ret = .ok false ∧ r.state = s
  | .error .parse_error => r.ret = .ok false ∧ r.state = s
  -- the text may be JSON or not, but the reference returns
  | .error .out_of_range => ∃ loaded, r.ret = .ok loaded

theorem getD_eq_iff {α : Type} {o : Option α} {x : α} : o.getD x = x ↔ ∀ y, o = some y → y = x := by
  cases o <;> simp

/-- The two agree when no key that the code reads into the wrong place, or not
at all, asks for a change. -/
theorem stored_eq_reference_iff (j : Json K) (s : CAutomation K) :
    stored j s = reference j s ↔
      (∀ w, j.boolAt "write-enable" = some w →
        w = s.m_bWrite ∧ w = (j.boolAt "debug-enable").getD s.m_bDebug) ∧
      (∀ z, j.byteAt "zone" = some z → z = s.m_zone) ∧
      (∀ z, j.byteAt "subzone" = some z → z = s.m_subzone) ∧
      (∀ x, j.numberAt "longitude" = some x → x = s.m_longitude) ∧
      (∀ x, j.numberAt "latitude" = some x → x = s.m_latitude) := by
  constructor
  · intro h
    have hdebug : (j.boolAt "write-enable").getD ((j.boolAt "debug-enable").getD s.m_bDebug) =
        (j.boolAt "debug-enable").getD s.m_bDebug := congrArg m_bDebug h
    have hwrite := (congrArg m_bWrite h).symm
    refine ⟨fun w hw => ⟨getD_eq_iff.1 hwrite w hw, getD_eq_iff.1 hdebug w hw⟩,
      getD_eq_iff.1 (congrArg m_zone h).symm, getD_eq_iff.1 (congrArg m_subzone h).symm,
      getD_eq_iff.1 (congrArg m_longitude h).symm, getD_eq_iff.1 (congrArg m_latitude h).symm⟩
  · rintro ⟨hw, hz, hsz, hlon, hlat⟩
    unfold stored reference
    rw [getD_eq_iff.2 fun w h => (hw w h).1, getD_eq_iff.2 fun w h => (hw w h).2, getD_eq_iff.2 hz,
      getD_eq_iff.2 hsz, getD_eq_iff.2 hlon, getD_eq_iff.2 hlat]

/-- Loading is exact if and only if a text that begins with a value has nothing
but white space after it, holds no number too large for a double, and asks for
no change at the five keys the code does not store, nor for a "write-enable"
other than what "debug-enable" leaves. -/
theorem load_exact_iff (content : String) (s : CAutomation K) :
    LoadsExactly E content s ↔
      E.readJson content ≠ .error .out_of_range ∧ ∀ j rest, E.readJson content = .ok (j, rest) →
        rest.all Char.isWhitespace = true ∧
        (∀ w, j.boolAt "write-enable" = some w →
          w = s.m_bWrite ∧ w = (j.boolAt "debug-enable").getD s.m_bDebug) ∧
        (∀ z, j.byteAt "zone" = some z → z = s.m_zone) ∧
        (∀ z, j.byteAt "subzone" = some z → z = s.m_subzone) ∧
        (∀ x, j.numberAt "longitude" = some x → x = s.m_longitude) ∧
        (∀ x, j.numberAt "latitude" = some x → x = s.m_latitude) := by
  unfold LoadsExactly doLoadConfig
  cases E.readJson content with
  | error e =>
    cases e with
    | parse_error => simp
    | out_of_range => simp
  | ok value =>
    obtain ⟨j, rest⟩ := value
    have hb := blocks_state j s
    dsimp only
    rw [hb]
    by_cases hrest : rest.all Char.isWhitespace = true
    · rw [if_pos hrest, stored_eq_reference_iff]
      constructor
      · rintro ⟨-, hkeys⟩
        refine ⟨nofun, ?_⟩
        rintro _ _ ⟨⟩
        exact ⟨hrest, hkeys⟩
      · exact fun h => ⟨rfl, (h.2 j rest rfl).2⟩
    · -- the code has read the value and returns true
      rw [if_neg hrest]
      constructor
      · rintro ⟨hret, -⟩
        cases hret
      · exact fun h => absurd (h.2 j rest rfl).1 hrest

/-- A document that only sets "write-enable" switches debugging on, and so does
one that sets "debug-enable" in a text that is not JSON. -/
theorem load_failures :
    let s := new (rationalEnv fun _ => .error .parse_error) (march 20 12 0 (by decide))
    ¬ LoadsExactly (rationalEnv fun _ => .ok (.object [("write-enable", .boolean true)], ""))
        "\x7b\"write-enable\": true\x7d" s ∧
      ¬ LoadsExactly (rationalEnv fun _ => .ok (.object [("debug-enable", .boolean true)], " garbage"))
        "\x7b\"debug-enable\": true\x7d garbage" s := by
  intro s
  have hempty : ("".all Char.isWhitespace) = true := by simp
  have hgarbage : (" garbage".all Char.isWhitespace) = false := by simp
  constructor
  · intro h
    simp only [LoadsExactly, doLoadConfig, rationalEnv, hempty, if_true] at h
    have hwrite := congrArg m_bWrite h.2
    revert hwrite
    decide
  · intro h
    simp only [LoadsExactly, doLoadConfig, rationalEnv, hgarbage] at h
    cases h.1

end

end CAutomation

end VscpAutomation
