import SecretMirror.Cache
import SecretMirror.Decision

/-!
# The rules of decision

`Decides` lists what can be decided about a canonical secret and its mirror, one rule for each case,
with everything that the case tells about the two.  `decide` decides by exactly these rules
(`decide_eq_ok_iff`), so a decision is taken apart by its rule and never by unfolding `decide`.
-/

namespace SecretMirror

def Key.source : Key := .ofTexts Names.configNamespace Names.source

def Key.target : Key := .ofTexts Names.configNamespace Names.target

/-- What is decided about a canonical secret and its mirror, where a mirror that is created gets the
given name.  Each rule holds all that its case tells about the two secrets. -/
inductive Decides (name : Value) : Option Secret → Option Secret → Decision → Prop where
  | sourceAbsent (target : Option Secret) : Decides name none target (.noOp .sourceAbsent)
  | create {s r : Secret} (hmirror : s.mirror name = .ok r) :
      Decides name (some s) none (.create r)
  | foreign (s : Secret) {t : Secret} (hmarker : t.isManaged = false) :
      Decides name (some s) (some t) (.noOp .foreign)
  | inSync {s t : Secret} (hmarker : t.isManaged = true)
      (hequal : Data.equal t.data s.data = true) : Decides name (some s) (some t) (.noOp .inSync)
  | update {s t : Secret} {data : Data} (hmarker : t.isManaged = true)
      (hdiffers : Data.equal t.data s.data = false) (hdata : s.data = some data) :
      Decides name (some s) (some t) (.update { t with data := some data })

theorem decides_of_decide {source target : Option Secret} {name : Value} {d : Decision}
    (h : decide source target name = .ok d) : Decides name source target d := by
  cases source with
  | none =>
    cases h
    exact .sourceAbsent target
  | some s =>
    cases target with
    | none =>
      simp only [decide] at h
      cases hmirror : s.mirror name with
      | error m =>
        rw [hmirror] at h
        cases h
      | ok r =>
        rw [hmirror] at h
        cases h
        exact .create hmirror
    | some t =>
      simp only [decide] at h
      cases hmarker : t.isManaged with
      | false =>
        rw [hmarker] at h
        cases h
        exact .foreign s hmarker
      | true =>
        rw [hmarker] at h
        cases hequal : Data.equal t.data s.data with
        | true =>
          rw [hequal] at h
          cases h
          exact .inSync hmarker hequal
        | false =>
          rw [hequal] at h
          simp only [Secret.sourceData] at h
          cases hdata : s.data with
          | none =>
            rw [hdata] at h
            cases h
          | some data =>
            rw [hdata] at h
            cases h
            exact .update hmarker hequal hdata

theorem decide_eq_ok_iff {source target : Option Secret} {name : Value} {d : Decision} :
    decide source target name = .ok d ↔ Decides name source target d := by
  constructor
  · exact decides_of_decide
  · intro h
    cases h with
    | sourceAbsent target => rfl
    | create hmirror =>
      simp only [decide]
      rw [hmirror]
      rfl
    | foreign s hmarker =>
      simp only [decide]
      rw [hmarker]
      rfl
    | inSync hmarker hequal =>
      simp only [decide]
      rw [hmarker, hequal]
      rfl
    | update hmarker hdiffers hdata =>
      simp only [decide, Secret.sourceData]
      rw [hmarker, hdiffers, hdata]
      rfl

/-- Something is decided about every canonical secret with a data section. -/
theorem exists_decides (name : Value) {source : Option Secret} (target : Option Secret)
    (hdata : ∀ s, source = some s → ∃ data, s.data = some data) :
    ∃ d, Decides name source target d := by
  cases source with
  | none => exact ⟨_, .sourceAbsent target⟩
  | some s =>
    obtain ⟨data, hs⟩ := hdata s rfl
    cases target with
    | none =>
      exact ⟨_, .create (Secret.mirror_eq_ok_iff.2 ⟨data, hs, rfl⟩)⟩
    | some t =>
      cases hmarker : t.isManaged with
      | false => exact ⟨_, .foreign s hmarker⟩
      | true =>
        cases hequal : Data.equal t.data s.data with
        | true => exact ⟨_, .inSync hmarker hequal⟩
        | false => exact ⟨_, .update hmarker hequal hs⟩

end SecretMirror
