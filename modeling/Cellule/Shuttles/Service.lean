import Mathlib.Tactic
import Cellule.Lib.Machine
import Cellule.Shuttles.Conservation

/-! # When the service can answer

`main` advertises `get_id_shuttle_at_poste` before it waits for the number of shuttles, and fills
`liste_file` once it has left that wait. The handler runs inside `spinOnce`, which both loops call:
a request handled by the wait loop reads an empty vector, and every later one finds its queue.
-/

namespace Shuttles

/-- The globals of the process, its sensor image, the variables of the main loop and the loop in
which `main` is. -/
structure Processus where
  NbNavette : ℤ
  initPos : Bool
  numCapteur : ℕ
  capteurs : Capteurs
  manager : ShuttleManager
  enBoucle : Bool

/-- What happens in the process, from the moment the service is advertised. -/
inductive Action
  /-- `initPosNavetteCallback`. -/
  | nbNavettes (data : ℤ)
  | capteurs (msg : MsgSensorState)
  /-- The wait loop ends and `main` fills `liste_file`. -/
  | entrerBoucle
  | scan
  | requete (robot position : ℤ)

/-- An action is a request. -/
def Action.estRequete : Action → Bool
  | requete _ _ => true
  | _ => false

namespace Processus

/-- The wait loop is entered, with an empty `liste_file`. -/
def initial : Processus where
  NbNavette := 0
  initPos := false
  numCapteur := 0
  capteurs := Capteurs.initial
  manager := { listeFile := [], etatCapteur := [], erreurs := [] }
  enBoucle := false

/-- The answer to a request. -/
def repondre (s : Processus) (robot position : ℤ) : Except Faute ℤ :=
  shuttleAtPoste s.manager s.numCapteur robot position

/-- One action; nothing is said of what follows an access that C++ leaves undefined. -/
def etape (s : Processus) : Action → Option Processus
  | .nbNavettes data => some { s with NbNavette := data, initPos := true }
  | .capteurs msg => some { s with capteurs := s.capteurs.callbackCapteursSimulation msg }
  | .entrerBoucle =>
      if s.enBoucle = false ∧ s.initPos = true then
        some { s with manager := Shuttles.initial s.NbNavette.toNat, enBoucle := true }
      else none
  | .scan =>
      if s.enBoucle = true then
        (Shuttles.scan s.manager s.capteurs).toOption.map fun manager => { s with manager := manager }
      else none
  | .requete robot position =>
      (s.repondre robot position).toOption.map fun _ =>
        { s with numCapteur := Shuttles.numCapteur s.numCapteur robot position }

/-- A run of the process. -/
abbrev Execution (trace : List Action) (s : Processus) : Prop :=
  Reactive.Run (fun s a s' => etape s a = some s') initial trace s

/-- A request finds its queue and is answered by the shuttle at its head, or by `66` if and only if
there is none, as it would be without the requests before it. -/
def Servie (trace : List Action) (s : Processus) (robot position : ℤ) : Prop :=
  ∃ file, s.manager.listeFile[Shuttles.numCapteur s.numCapteur robot position]? = some (some file) ∧
    s.repondre robot position = .ok (file.queue.headD 66) ∧
    (file.queue.headD 66 = 66 ↔ file.queue = []) ∧
    ∃ s₀, Execution (trace.filter fun a => !a.estRequete) s₀ ∧
      s₀.repondre robot position = s.repondre robot position

/-! ## The two loops -/

/-- The invariant of the runs: no queue yet, or the invariant of the scans. -/
def Tient (s : Processus) : Prop :=
  if s.enBoucle = true then ∃ nbNavette, Invariant nbNavette s.manager else s.manager.listeFile = []

variable {s s' : Processus} {a : Action} {trace : List Action} {robot position : ℤ}

theorem tient_etape (h : s.Tient) (ha : s.etape a = some s') : s'.Tient := by
  unfold Tient at h ⊢
  cases a with
  | nbNavettes data =>
    cases ha
    exact h
  | capteurs msg =>
    cases ha
    exact h
  | entrerBoucle =>
    rw [etape] at ha
    split_ifs at ha with hboucle
    cases ha
    rw [if_pos rfl]
    exact ⟨_, invariant_initial _⟩
  | scan =>
    rw [etape] at ha
    split_ifs at ha with hboucle
    rw [if_pos hboucle] at h
    obtain ⟨nbNavette, hinv⟩ := h
    obtain ⟨manager, hscan, hinv'⟩ := scan_spec hinv s.capteurs
    rw [hscan] at ha
    cases ha
    rw [if_pos hboucle]
    exact ⟨nbNavette, hinv'⟩
  | requete robot position =>
    obtain ⟨id, -, rfl⟩ := Option.map_eq_some_iff.1 ha
    exact h

theorem tient_execution (h : Execution trace s) : s.Tient := by
  induction h with
  | nil => rfl
  | snoc _ ha ih => exact tient_etape ih ha

/-! ## The requests -/

/-- A robot and a position of the track name a sensor among the sections, whatever the request
before has left. -/
theorem numCapteur_eq (hrobot : 1 ≤ robot ∧ robot ≤ 4) (hposition : position = 2 ∨ position = 3)
    (num : ℕ) :
    Shuttles.numCapteur num robot position = Shuttles.numCapteur 0 robot position ∧
      1 ≤ Shuttles.numCapteur 0 robot position ∧ Shuttles.numCapteur 0 robot position ≤ 34 := by
  obtain ⟨h1, h4⟩ := hrobot
  interval_cases robot <;> rcases hposition with rfl | rfl <;> exact ⟨rfl, by decide, by decide⟩

/-- Two processes that differ by the sensor of the last request. -/
def Pareil (s t : Processus) : Prop := s = { t with numCapteur := s.numCapteur }

theorem pareil_requete {t : Processus} (h : Pareil s t) (ha : s.etape a = some s')
    (hrequete : a.estRequete = true) : Pareil s' t := by
  cases a with
  | requete robot position =>
    obtain ⟨id, -, rfl⟩ := Option.map_eq_some_iff.1 ha
    rw [Pareil] at h ⊢
    rw [h]
  | nbNavettes | capteurs | entrerBoucle | scan => cases hrequete

/-- The other actions do not look at the sensor of the last request. -/
theorem pareil_etape {t : Processus} (h : Pareil s t) (ha : s.etape a = some s')
    (hrequete : a.estRequete = false) : ∃ t', t.etape a = some t' ∧ Pareil s' t' := by
  rw [Pareil] at h
  rw [h] at ha
  cases a with
  | requete => cases hrequete
  | nbNavettes data =>
    cases ha
    exact ⟨_, rfl, rfl⟩
  | capteurs msg =>
    cases ha
    exact ⟨_, rfl, rfl⟩
  | entrerBoucle =>
    simp only [etape] at ha ⊢
    split_ifs at ha ⊢
    cases ha
    exact ⟨_, rfl, rfl⟩
  | scan =>
    simp only [etape] at ha ⊢
    split_ifs at ha ⊢
    obtain ⟨manager, hscan, rfl⟩ := Option.map_eq_some_iff.1 ha
    rw [hscan]
    exact ⟨_, rfl, rfl⟩

/-- The requests of a run can be erased. -/
theorem execution_sans_requetes (h : Execution trace s) :
    ∃ s₀, Execution (trace.filter fun a => !a.estRequete) s₀ ∧ Pareil s s₀ :=
  h.erase rfl (fun _ _ _ _ => pareil_requete) (fun _ _ _ _ => pareil_etape)

/-- The answer does not depend on the sensor of the last request. -/
theorem repondre_pareil {t : Processus} (h : Pareil s t) (hrobot : 1 ≤ robot ∧ robot ≤ 4)
    (hposition : position = 2 ∨ position = 3) : t.repondre robot position = s.repondre robot position := by
  unfold repondre shuttleAtPoste
  rw [(numCapteur_eq hrobot hposition t.numCapteur).1, (numCapteur_eq hrobot hposition s.numCapteur).1]
  rw [Pareil] at h
  rw [h]

/-- The head of a queue is a shuttle of the cell, so that `66` is not one. -/
theorem headD_eq_66_iff {nbNavette : ℕ} {m : ShuttleManager} (hm : Invariant nbNavette m) {i : ℕ}
    {file : FileAttente} (hfile : m.listeFile[i]? = some (some file)) :
    file.queue.headD 66 = 66 ↔ file.queue = [] := by
  cases hq : file.queue with
  | nil => exact iff_of_true rfl rfl
  | cons navette reste =>
    have hmem := hm.bilan.2.1 navette (mem_navettes hfile (by simp [hq]))
    simp only [chargees, List.mem_map, List.mem_range] at hmem
    obtain ⟨j, hj, rfl⟩ := hmem
    apply iff_of_false
    · rw [List.headD_cons]
      omega
    · exact List.cons_ne_nil _ _

/-- A queue that exists answers by its head. -/
theorem shuttleAtPoste_of_getElem? {m : ShuttleManager} {num : ℕ} {file : FileAttente}
    (hfile : m.listeFile[Shuttles.numCapteur num robot position]? = some (some file)) :
    shuttleAtPoste m num robot position = .ok (file.queue.headD 66) := by
  unfold shuttleAtPoste
  rw [fileDe_of_getElem? hfile]
  cases hq : file.queue with
  | nil =>
    show (if file.queue = [] then pure 66 else file.getFirstNavette) = _
    rw [if_pos hq]
    rfl
  | cons navette reste =>
    show (if file.queue = [] then pure 66 else file.getFirstNavette) = _
    rw [if_neg (by simp [hq]), FileAttente.getFirstNavette, hq]
    rfl

/-- In every run a request of a robot and a position of the track is served if and only if `main`
has left its wait loop. -/
theorem servie_iff (h : Execution trace s) (hrobot : 1 ≤ robot ∧ robot ≤ 4)
    (hposition : position = 2 ∨ position = 3) :
    s.Servie trace robot position ↔ s.enBoucle = true := by
  have htient := tient_execution h
  unfold Tient at htient
  constructor
  · rintro ⟨file, hfile, -⟩
    by_contra hboucle
    rw [if_neg hboucle] at htient
    rw [htient] at hfile
    cases hfile
  · intro hboucle
    rw [if_pos hboucle] at htient
    obtain ⟨nbNavette, hinv⟩ := htient
    obtain ⟨hnum, h1, h34⟩ := numCapteur_eq hrobot hposition s.numCapteur
    obtain ⟨file, hfile, -⟩ := hinv.forme.file _ h1 h34
    rw [← hnum] at hfile
    obtain ⟨s₀, hs₀, hpareil⟩ := execution_sans_requetes h
    exact ⟨file, hfile, shuttleAtPoste_of_getElem? hfile, headD_eq_66_iff hinv hfile, s₀, hs₀,
      repondre_pareil hpareil hrobot hposition⟩

/-- The number of shuttles comes, the loop is entered, and robot 2 asks before robot 1 does. -/
def deuxRequetes : List Action := [.nbNavettes 6, .entrerBoucle, .scan, .requete 2 3]

theorem servie_iff_deuxRequetes :
    ∃ s, Execution deuxRequetes s ∧ s.Servie deuxRequetes 1 2 := by
  obtain ⟨s, hs, hboucle⟩ : ∃ s, Reactive.execute (fun _ _ => True) etape initial deuxRequetes = some s ∧
      s.enBoucle = true := ⟨_, rfl, rfl⟩
  have hrun : Execution deuxRequetes s :=
    (Reactive.run_execute .nil hs).mono fun _ _ _ h => h.2
  exact ⟨s, hrun, (servie_iff hrun (by norm_num) (by norm_num)).2 hboucle⟩

/-- A request that comes first reads an entry of an empty vector. -/
theorem requete_en_attente :
    Execution [] initial ∧ initial.repondre 1 2 = .error .indice ∧ ¬ initial.Servie [] 1 2 := by
  refine ⟨.nil, rfl, ?_⟩
  rintro ⟨file, hfile, -⟩
  cases hfile

end Processus

end Shuttles
