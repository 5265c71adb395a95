import Mathlib.Tactic
import Cellule.Lib.Edges
import Cellule.Shuttles.Passage

/-! # The edges that the scans see

The main loop alternates scans with the delivery of messages to the `Capteurs`. A scan compares the
levels it reads with those of the scan before, which it keeps in two vectors that are rebuilt at
every turn. Its edge loop runs with a branch that writes its sensor down, and these notes are
counted. Each sensor is one sampled level, whatever the messages do to the other sensors.
-/

namespace Shuttles

open Edges

/-- The bit of a message for sensor `i`: `PS1..PS24`, then `CP1..CP10`. -/
def bitCapteur (msg : MsgSensorState) (i : ℕ) : Bool := if i ≤ 24 then msg.PS i else msg.CP (i - 24)

/-! ## The branches that are taken -/

/-- The falling branch, which also writes its sensor down. -/
def brancheNotee (c : Capteurs) (s : ShuttleManager × List ℕ) (i : ℕ) :
    Except Faute (ShuttleManager × List ℕ) := do
  let manager ← brancheDescendante c s.1 i
  return (manager, s.2 ++ [i])

/-- `scan`, with the sensors for which its edge loop has taken the falling branch. -/
def scanNote (s : ShuttleManager) (c : Capteurs) : Except Faute (ShuttleManager × List ℕ) := do
  let mem := s.etatCapteur
  let etat := lireCapteurs c
  let s ← (List.range' 1 34).foldlM (testerFront (brancheNotee c) mem etat) (s, [])
  return ({ s.1 with etatCapteur := etat }, s.2)

section Notes

variable {c : Capteurs} {mem etat : List Bool} {s s' : ShuttleManager}

/-- The branch is taken at a falling edge and nothing is done otherwise. -/
theorem testerFront_eq {σ : Type} (branche : σ → ℕ → Except Faute σ) (hmem : mem.length = 35)
    (hetat : etat.length = 35) (s : σ) {i : ℕ} (hi : i ≤ 34) :
    testerFront branche mem etat s i = if Descend mem etat i then branche s i else .ok s := by
  obtain ⟨present, hpresent⟩ := niveau_of_lt (v := etat) (i := i) (by omega)
  obtain ⟨avant, havant⟩ := niveau_of_lt (v := mem) (i := i) (by omega)
  have hdescend : Descend mem etat i ↔ present = false ∧ avant = true := by
    unfold Descend
    rw [hpresent, havant, Except.ok.injEq, Except.ok.injEq]
  simp only [testerFront, hpresent, havant, bind, Except.bind, hdescend]
  rfl

/-- The edge loop with its notes is the edge loop, and notes the falling edges. -/
theorem foldlM_note (hmem : mem.length = 35) (hetat : etat.length = 35) {is : List ℕ}
    (his : ∀ i ∈ is, i ≤ 34) (notes : List ℕ) (h : is.foldlM (traiterCapteur c mem etat) s = .ok s') :
    is.foldlM (testerFront (brancheNotee c) mem etat) (s, notes) =
      .ok (s', notes ++ is.filter fun i => Descend mem etat i) := by
  induction is generalizing s notes with
  | nil =>
    cases h
    rw [List.filter_nil, List.append_nil]
    rfl
  | cons i is ih =>
    obtain ⟨hi, his⟩ := List.forall_mem_cons.1 his
    rw [List.foldlM_cons, traiterCapteur, testerFront_eq _ hmem hetat s hi] at h
    rw [List.foldlM_cons, testerFront_eq _ hmem hetat (s, notes) hi]
    by_cases hdescend : Descend mem etat i
    · rw [if_pos hdescend] at h ⊢
      rw [List.filter_cons_of_pos (by simpa using hdescend)]
      cases hs₁ : brancheDescendante c s i with
      | error e =>
        rw [hs₁] at h
        cases h
      | ok s₁ =>
        rw [hs₁] at h
        rw [brancheNotee, hs₁]
        refine (ih his (notes ++ [i]) h).trans ?_
        rw [List.append_assoc]
        rfl
    · rw [if_neg hdescend] at h ⊢
      rw [List.filter_cons_of_neg (by simpa using hdescend)]
      exact ih his notes h

/-- The notes do not disturb the scan, and hold each falling edge once. -/
theorem scanNote_of_scan (hs : s.etatCapteur.length = 35) (h : scan s c = .ok s') :
    ∃ notes, scanNote s c = .ok (s', notes) ∧ ∀ i, 1 ≤ i → i ≤ 34 →
      notes.count i = if Descend s.etatCapteur (lireCapteurs c) i then 1 else 0 := by
  rw [scan] at h
  cases hl : (List.range' 1 34).foldlM (traiterCapteur c s.etatCapteur (lireCapteurs c)) s with
  | error e =>
    rw [hl] at h
    cases h
  | ok s₁ =>
    rw [hl] at h
    cases h
    have hcapteurs : ∀ i ∈ List.range' 1 34, i ≤ 34 := by
      intro i hi
      rw [List.mem_range'_1] at hi
      omega
    have hnote := foldlM_note hs (length_lireCapteurs c) hcapteurs [] hl
    refine ⟨_, by rw [scanNote, hnote]; rfl, fun i h1 h34 => ?_⟩
    rw [List.nil_append]
    split_ifs with hdescend
    · rw [List.count_filter (by simpa using hdescend)]
      exact List.count_eq_one_of_mem List.nodup_range' (List.mem_range'_1.2 ⟨h1, by omega⟩)
    · refine List.count_eq_zero.2 fun hmem => hdescend ?_
      simpa using (List.mem_filter.1 hmem).2

end Notes

/-! ## The loop -/

/-- What happens to the node: a message of the sensors is delivered, or a scan. -/
inductive Evenement
  | livrer (msg : MsgSensorState)
  | scan

/-- One event, for the variables of the loop and the sensor image. -/
def tourner (s : ShuttleManager × Capteurs) : Evenement → Except Faute (ShuttleManager × Capteurs)
  | .livrer msg => .ok (s.1, s.2.callbackCapteursSimulation msg)
  | .scan => (Shuttles.scan s.1 s.2).map fun manager => (manager, s.2)

/-- The same, with the number of times that the scans have taken the falling branch for each
sensor. -/
structure Boucle where
  manager : ShuttleManager
  capteurs : Capteurs
  fronts : ℕ → ℕ

/-- The loop when it is entered, no message having come. -/
def Boucle.initial (nbNavette : ℕ) : Boucle where
  manager := Shuttles.initial nbNavette
  capteurs := Capteurs.initial
  fronts _ := 0

/-- One event, where a scan counts the branches that it takes. -/
def Boucle.etape (s : Boucle) : Evenement → Except Faute Boucle
  | .livrer msg => .ok { s with capteurs := s.capteurs.callbackCapteursSimulation msg }
  | .scan => do
      let r ← scanNote s.manager s.capteurs
      return { s with manager := r.1, fronts := fun i => s.fronts i + r.2.count i }

/-- What an event is for the level of sensor `i`. -/
def Evenement.signal (i : ℕ) : Evenement → Signal
  | livrer msg => .set (bitCapteur msg i)
  | scan => .sample

/-! ## One sensor -/

/-- The level of sensor `i` in the sensor image. -/
def niveauImage (c : Capteurs) (i : ℕ) : Bool := if i ≤ 24 then c.getPS i else c.getCP (i - 24)

/-- A scan reads the level of sensor `i` at index `i`. -/
theorem niveau_lireCapteurs (c : Capteurs) {i : ℕ} (h1 : 1 ≤ i) (h34 : i ≤ 34) :
    niveau (lireCapteurs c) i = .ok (niveauImage c i) := by
  obtain ⟨j, rfl⟩ : ∃ j, i = j + 1 := ⟨i - 1, by omega⟩
  unfold niveau lireCapteurs niveauImage
  rw [List.getElem?_cons_succ]
  by_cases hj : j < 24
  · rw [List.getElem?_append_left (by simpa using hj), List.getElem?_map,
      List.getElem?_range' hj, if_pos (by omega)]
    simp [add_comm]
  · rw [List.getElem?_append_right (by simpa using hj), List.getElem?_map, List.length_map,
      List.length_range', List.getElem?_range' (by omega), if_neg (by omega)]
    simp only [Option.map_some, one_mul]
    congr 2
    omega

/-- A message sets the level of every sensor. -/
theorem niveauImage_callback (msg : MsgSensorState) (c : Capteurs) {i : ℕ} (h1 : 1 ≤ i)
    (h34 : i ≤ 34) :
    niveauImage (c.callbackCapteursSimulation msg) i = bitCapteur msg i := by
  unfold niveauImage bitCapteur
  by_cases hi : i ≤ 24
  · rw [if_pos hi, if_pos hi]
    exact if_pos (by omega)
  · rw [if_neg hi, if_neg hi]
    exact if_pos (by omega)

theorem descend_iff {mem : List Bool} {i : ℕ} {avant : Bool} (hmem : niveau mem i = .ok avant)
    (c : Capteurs) (h1 : 1 ≤ i) (h34 : i ≤ 34) :
    Descend mem (lireCapteurs c) i ↔ avant = true ∧ niveauImage c i = false := by
  unfold Descend
  rw [hmem, niveau_lireCapteurs c h1 h34, Except.ok.injEq, Except.ok.injEq, and_comm]

/-! ## The runs -/

/-- A scan keeps the levels that it has read. -/
theorem etatCapteur_scan {s s' : ShuttleManager} {c : Capteurs} (h : scan s c = .ok s') :
    s'.etatCapteur = lireCapteurs c := by
  simp only [scan] at h
  cases hl : (List.range' 1 34).foldlM (traiterCapteur c s.etatCapteur (lireCapteurs c)) s with
  | error e =>
    rw [hl] at h
    cases h
  | ok s₁ =>
    rw [hl] at h
    cases h
    rfl

/-- One event: it succeeds, the counts do not disturb the loop, and each sensor is one detector. -/
theorem Boucle.etape_spec {nbNavette : ℕ} {s : Boucle} (hs : Invariant nbNavette s.manager)
    (e : Evenement) :
    ∃ s', s.etape e = .ok s' ∧ tourner (s.manager, s.capteurs) e = .ok (s'.manager, s'.capteurs) ∧
      Invariant nbNavette s'.manager ∧
      ∀ i, 1 ≤ i → i ≤ 34 → ∀ mem, niveau s.manager.etatCapteur i = .ok mem →
        ∃ mem', niveau s'.manager.etatCapteur i = .ok mem' ∧
          ∀ signals, s'.fronts i + detected mem' (niveauImage s'.capteurs i) signals =
            s.fronts i + detected mem (niveauImage s.capteurs i) (e.signal i :: signals) := by
  cases e with
  | livrer msg =>
    refine ⟨_, rfl, rfl, hs, ?_⟩
    intro i h1 h34 mem hmem
    refine ⟨mem, hmem, ?_⟩
    intro signals
    rw [niveauImage_callback msg s.capteurs h1 h34]
    rfl
  | scan =>
    obtain ⟨manager, hscan, hinv⟩ := scan_spec hs s.capteurs
    obtain ⟨notes, hnotes, hcompte⟩ := scanNote_of_scan hs.capteurs hscan
    have hetat : manager.etatCapteur = lireCapteurs s.capteurs := etatCapteur_scan hscan
    refine ⟨_, by rw [Boucle.etape, hnotes]; rfl, by rw [tourner, hscan]; rfl, hinv, ?_⟩
    intro i h1 h34 mem hmem
    refine ⟨niveauImage s.capteurs i, ?_, ?_⟩
    · rw [hetat, niveau_lireCapteurs s.capteurs h1 h34]
    · intro signals
      show s.fronts i + notes.count i + _ = _ + (_ + _)
      rw [hcompte i h1 h34]
      simp only [descend_iff hmem s.capteurs h1 h34]
      omega

/-- A run from any state: every event succeeds, and the count of each sensor grows by what its
detector sees. -/
theorem Boucle.foldlM_etape_spec {nbNavette : ℕ} (trace : List Evenement) {s : Boucle}
    (hs : Invariant nbNavette s.manager) :
    ∃ s', trace.foldlM Boucle.etape s = .ok s' ∧
      trace.foldlM tourner (s.manager, s.capteurs) = .ok (s'.manager, s'.capteurs) ∧
      ∀ i, 1 ≤ i → i ≤ 34 → ∀ mem, niveau s.manager.etatCapteur i = .ok mem →
        s'.fronts i = s.fronts i +
          detected mem (niveauImage s.capteurs i) (trace.map (Evenement.signal i)) := by
  induction trace generalizing s with
  | nil => exact ⟨s, rfl, rfl, fun _ _ _ _ _ => rfl⟩
  | cons e trace ih =>
    obtain ⟨s₁, he, htour, hinv, hdetect⟩ := Boucle.etape_spec hs e
    obtain ⟨s', hs', hboucle, hfronts⟩ := ih hinv
    refine ⟨s', by rw [List.foldlM_cons, he]; exact hs', by rw [List.foldlM_cons, htour]; exact hboucle, ?_⟩
    intro i h1 h34 mem hmem
    obtain ⟨mem', hmem', hseen⟩ := hdetect i h1 h34 mem hmem
    rw [hfronts i h1 h34 mem' hmem', hseen, List.map_cons]

/-- The scans that took the falling branch for a sensor are as many as the falls of its bit, in the
messages that a scan has followed, as soon as a scan comes between two changes of the bit. The loop
whose branches are counted is the loop. -/
theorem fronts_comptes (nbNavette : ℕ) (trace : List Evenement) :
    ∃ s, trace.foldlM Boucle.etape (Boucle.initial nbNavette) = .ok s ∧
      trace.foldlM tourner (Shuttles.initial nbNavette, Capteurs.initial) = .ok (s.manager, s.capteurs) ∧
      ∀ i, 1 ≤ i → i ≤ 34 → Spaced false (trace.map (Evenement.signal i)) →
        s.fronts i = falls false (trace.map (Evenement.signal i)) := by
  obtain ⟨s, hs, hboucle, hfronts⟩ := Boucle.foldlM_etape_spec trace (invariant_initial nbNavette)
    (s := Boucle.initial nbNavette)
  refine ⟨s, hs, hboucle, ?_⟩
  intro i h1 h34 hspaced
  have hmem : niveau (Boucle.initial nbNavette).manager.etatCapteur i = .ok false := by
    show niveau ((List.range' 1 35).map fun _ => false) i = .ok false
    unfold niveau
    rw [List.getElem?_map, List.getElem?_range' (by omega)]
    rfl
  have hlevel : niveauImage (Boucle.initial nbNavette).capteurs i = false := ite_self false
  rw [hfronts i h1 h34 false hmem, hlevel, detected_eq (fun h => absurd rfl h) hspaced,
    if_neg (fun h => Bool.false_ne_true h.1), Nat.zero_add]
  exact Nat.zero_add _

/-- A message in which one stop sensor is up. -/
def messagePS (k : ℕ) : MsgSensorState :=
  { CPI := fun _ => false, CP := fun _ => false, PS := fun i => i == k, DG := fun _ => false
    DD := fun _ => false }

/-- A shuttle passes sensor 3, then another one sensor 9, with a scan after each message. -/
def deuxPassages : List Evenement :=
  [.livrer (messagePS 3), .scan, .livrer (messagePS 9), .scan, .livrer (messagePS 0)]

/-- The fall of sensor 3 is counted; that of sensor 9 no scan has followed yet. -/
theorem fronts_comptes_deuxPassages :
    ∃ s, deuxPassages.foldlM Boucle.etape (Boucle.initial 6) = .ok s ∧ s.fronts 3 = 1 ∧
      s.fronts 9 = 0 := by
  obtain ⟨s, hs, -, hfronts⟩ := fronts_comptes 6 deuxPassages
  have hspaced : ∀ i, Spaced false (deuxPassages.map (Evenement.signal i)) := by
    intro i
    apply Spaced.set _ watched_sample
    apply Spaced.sample
    apply Spaced.set _ watched_sample
    apply Spaced.sample
    apply Spaced.set spaced_nil
    intro mid b post hmid
    simp at hmid
  refine ⟨s, hs, ?_, ?_⟩
  · rw [hfronts 3 (by norm_num) (by norm_num) (hspaced 3)]
    rfl
  · rw [hfronts 9 (by norm_num) (by norm_num) (hspaced 9)]
    rfl

end Shuttles
