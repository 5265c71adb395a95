import Cellule.Shuttles.ShuttleManager

/-! # No shuttle is duplicated or lost silently

The invariant of the scan loop: the shuttles found in the queues, together with those dropped so
far, are the ones loaded at the start, and one code-4 error stands for each dropped shuttle. Along
the way no access leaves the vectors and no empty queue is read or popped.
-/

namespace Shuttles

/-- All the shuttle numbers standing in a list of queues. -/
def navettes (l : List (Option FileAttente)) : List ℤ :=
  l.flatMap fun f => f.elim [] FileAttente.queue

/-- The shuttle numbers that `main` loads. -/
def chargees (nbNavette : ℕ) : List ℤ :=
  (List.range (min nbNavette 6)).map fun i : ℕ => (i : ℤ)

/-- The number of lost shuttles reported on `Erreur_log`. -/
def ShuttleManager.pertesSignalees (s : ShuttleManager) : ℕ :=
  s.erreurs.countP fun e => e.code = 4

/-- `liste_file` has its 35 slots and each of `1..34` holds a queue with valid successors. -/
structure Forme (l : List (Option FileAttente)) : Prop where
  length : l.length = 35
  file : ∀ i, 1 ≤ i → i ≤ 34 → ∃ f, l[i]? = some (some f) ∧ f.SuccesseursValides

/-- The invariant of the scan loop. -/
structure Invariant (nbNavette : ℕ) (s : ShuttleManager) : Prop where
  forme : Forme s.listeFile
  capteurs : s.etatCapteur.length = 35
  compte : ∃ perdues, (navettes s.listeFile ++ perdues).Perm (chargees nbNavette) ∧
    perdues.length = s.pertesSignalees

/-! ## Reading and writing one queue -/

theorem fileDe_of_getElem? {l : List (Option FileAttente)} {i : ℕ} {f : FileAttente}
    (h : l[i]? = some (some f)) : fileDe l i = .ok f := by
  simp [fileDe, h]

/-- Replacing the queue in one slot changes the standing shuttles by that queue only. -/
theorem count_navettes_set {l : List (Option FileAttente)} {i : ℕ} {f : FileAttente}
    (h : l[i]? = some (some f)) (g : FileAttente) (a : ℤ) :
    (navettes (l.set i (some g))).count a + f.queue.count a =
      (navettes l).count a + g.queue.count a := by
  induction l generalizing i with
  | nil => simp at h
  | cons head tail ih =>
    cases i with
    | zero =>
      obtain rfl : head = some f := by simpa using h
      simp only [List.set_cons_zero, navettes, List.flatMap_cons, List.count_append, Option.elim]
      omega
    | succ i =>
      have htail := ih (i := i) (by simpa using h)
      simp only [navettes, List.set_cons_succ, List.flatMap_cons, List.count_append] at htail ⊢
      omega

/-- Writing a queue with valid successors keeps the shape. -/
theorem Forme.set {l : List (Option FileAttente)} (hl : Forme l) {i : ℕ} {g : FileAttente}
    (hg : g.SuccesseursValides) : Forme (l.set i (some g)) := by
  refine ⟨by simpa using hl.length, fun j hj1 hj34 => ?_⟩
  obtain ⟨f, hf, hv⟩ := hl.file j hj1 hj34
  have hlt : j < l.length := by have := hl.length; omega
  by_cases hij : i = j
  · subst hij
    exact ⟨g, List.getElem?_set_self hlt, hg⟩
  · exact ⟨f, by rw [List.getElem?_set_ne hij]; exact hf, hv⟩

/-- Dropping the head of queue `i` rewrites that queue. -/
theorem retirerNavette_of_cons {l : List (Option FileAttente)} {i : ℕ} {f : FileAttente}
    (hf : l[i]? = some (some f)) {navette : ℤ} {reste : List ℤ} (hq : f.queue = navette :: reste) :
    retirerNavette l i = .ok (l.set i (some { f with queue := reste })) := by
  simp [retirerNavette, fileDe_of_getElem? hf, FileAttente.deleteNavetteInQueue, hq, bind,
    Except.bind, pure, Except.pure]

/-- Moving the head of queue `i` to the tail of queue `j` adds it there and drops it from queue
`i`. -/
theorem deplacerNavette_of_cons {l : List (Option FileAttente)} {i j : ℕ} {f g : FileAttente}
    (hf : l[i]? = some (some f)) (hg : l[j]? = some (some g)) {navette : ℤ} {reste : List ℤ}
    (hq : f.queue = navette :: reste) :
    ∃ f₁ reste₁, (l.set j (some (g.addNavetteInQueue navette)))[i]? = some (some f₁) ∧
      f₁.queue = navette :: reste₁ ∧ { f₁ with queue := [] } = { f with queue := [] } ∧
      deplacerNavette l i j = retirerNavette (l.set j (some (g.addNavetteInQueue navette))) i := by
  have hlen : j < l.length := (List.getElem?_eq_some_iff.mp hg).1
  have hfirst : f.getFirstNavette = .ok navette := by simp [FileAttente.getFirstNavette, hq]
  have hpas : deplacerNavette l i j =
      retirerNavette (l.set j (some (g.addNavetteInQueue navette))) i := by
    simp [deplacerNavette, retirerNavette, fileDe_of_getElem? hf, fileDe_of_getElem? hg, hfirst,
      bind, Except.bind]
  -- a section that is its own successor would find the shuttle at the head of the new queue
  by_cases hij : j = i
  · subst hij
    obtain rfl : f = g := by rw [hf] at hg; simpa using hg
    exact ⟨f.addNavetteInQueue navette, reste ++ [navette], List.getElem?_set_self hlen,
      by simp [FileAttente.addNavetteInQueue, hq], rfl, hpas⟩
  · exact ⟨f, reste, by rw [List.getElem?_set_ne hij]; exact hf, hq, rfl, hpas⟩

/-- Dropping the head of queue `i` removes exactly that shuttle. -/
theorem retirerNavette_spec {l : List (Option FileAttente)} (hl : Forme l) {i : ℕ} {f : FileAttente}
    (hf : l[i]? = some (some f)) (hv : f.SuccesseursValides) {navette : ℤ} {reste : List ℤ}
    (hq : f.queue = navette :: reste) :
    ∃ l', retirerNavette l i = .ok l' ∧ Forme l' ∧
      (navette :: navettes l').Perm (navettes l) := by
  refine ⟨_, retirerNavette_of_cons hf hq, hl.set hv, List.perm_iff_count.mpr fun a => ?_⟩
  have hset := count_navettes_set hf { f with queue := reste } a
  rw [hq] at hset
  simp only [List.count_cons] at hset ⊢
  omega

/-- Moving the head of queue `i` to the tail of queue `j` keeps the shuttles. -/
theorem deplacerNavette_spec {l : List (Option FileAttente)} (hl : Forme l) {i j : ℕ}
    {f g : FileAttente} (hf : l[i]? = some (some f)) (hvf : f.SuccesseursValides)
    (hg : l[j]? = some (some g)) (hvg : g.SuccesseursValides) {navette : ℤ} {reste : List ℤ}
    (hq : f.queue = navette :: reste) :
    ∃ l', deplacerNavette l i j = .ok l' ∧ Forme l' ∧ (navettes l').Perm (navettes l) := by
  obtain ⟨f₁, reste₁, hf₁, hq₁, htroncon, hpas⟩ := deplacerNavette_of_cons hf hg hq
  have hvf₁ : FileAttente.SuccesseursValides { f₁ with queue := [] } := by
    rw [htroncon]
    exact hvf
  have hforme : Forme (l.set j (some (g.addNavetteInQueue navette))) := hl.set hvg
  obtain ⟨l₂, hl₂, hforme₂, hperm⟩ := retirerNavette_spec hforme hf₁ hvf₁ hq₁
  refine ⟨l₂, hpas.trans hl₂, hforme₂, List.perm_iff_count.mpr fun a => ?_⟩
  have hset := count_navettes_set hg (g.addNavetteInQueue navette) a
  have hcount := List.perm_iff_count.mp hperm a
  simp only [FileAttente.addNavetteInQueue, List.count_append, List.count_cons,
    List.count_nil] at hset hcount
  omega

/-! ## One edge, one scan, one run -/

theorem niveau_of_lt {v : List Bool} {i : ℕ} (h : i < v.length) : ∃ b, niveau v i = .ok b :=
  ⟨v[i], by simp [niveau, List.getElem?_eq_getElem h]⟩

@[simp] theorem length_lireCapteurs (c : Capteurs) : (lireCapteurs c).length = 35 := by
  simp [lireCapteurs]

/-- One turn of the edge loop succeeds and keeps the invariant. -/
theorem traiterCapteur_spec {nbNavette : ℕ} {s : ShuttleManager} (hs : Invariant nbNavette s)
    (c : Capteurs) {mem etat : List Bool} (hmem : mem.length = 35) (hetat : etat.length = 35)
    {i : ℕ} (hi1 : 1 ≤ i) (hi34 : i ≤ 34) :
    ∃ s', traiterCapteur c mem etat s i = .ok s' ∧ Invariant nbNavette s' := by
  obtain ⟨present, hpresent⟩ := niveau_of_lt (v := etat) (i := i) (by omega)
  obtain ⟨avant, havant⟩ := niveau_of_lt (v := mem) (i := i) (by omega)
  obtain ⟨f, hf, hv⟩ := hs.forme.file i hi1 hi34
  obtain ⟨perdues, hperm, hlen⟩ := hs.compte
  set suivante := f.maj (c.getDD f.idAiguillage) (c.getDG f.idAiguillage) with hsuiv
  have hrange := FileAttente.maj_range hv (c.getDD f.idAiguillage) (c.getDG f.idAiguillage)
  simp only [traiterCapteur, testerFront, brancheDescendante, hpresent, havant, bind, Except.bind]
  by_cases hfront : present = false ∧ avant = true
  swap
  · exact ⟨s, by simp [hfront, pure, Except.pure], hs⟩
  rw [if_pos hfront]
  simp only [fileDe_of_getElem? hf, ← hsuiv]
  by_cases hpos : suivante > 0
  -- the shuttle enters the next section
  · obtain ⟨navette, reste, hq⟩ := FileAttente.exists_cons_of_maj_ne_zero (hsuiv ▸ hpos.ne')
    obtain ⟨g, hg, hvg⟩ := hs.forme.file suivante.toNat (by omega) (by omega)
    obtain ⟨l', hl', hforme, hp⟩ := deplacerNavette_spec hs.forme hf hv hg hvg hq
    refine ⟨{ s with listeFile := l' }, by simp [hpos, hl', pure, Except.pure],
      hforme, hs.capteurs, perdues, ?_, hlen⟩
    exact (hp.append_right perdues).trans hperm
  · by_cases hneg : suivante = -1
    -- the shuttle is dropped and the loss is published
    · have hne : suivante ≠ 0 := by omega
      obtain ⟨navette, reste, hq⟩ := FileAttente.exists_cons_of_maj_ne_zero (hsuiv ▸ hne)
      obtain ⟨l', hl', hforme, hp⟩ := retirerNavette_spec hs.forme hf hv hq
      refine ⟨{ s with listeFile := l', erreurs := s.erreurs ++ [⟨4, i⟩] },
        by simp [hneg, hl', pure, Except.pure], hforme, hs.capteurs, navette :: perdues, ?_, ?_⟩
      · exact (List.perm_middle.trans (hp.append_right perdues)).trans hperm
      · simp [ShuttleManager.pertesSignalees, hlen]
    · exact ⟨s, by simp [hpos, hneg, pure, Except.pure], hs⟩

/-- The edge loop over any run of sensors. -/
theorem foldlM_traiterCapteur_spec {nbNavette : ℕ} (c : Capteurs) {mem etat : List Bool}
    (hmem : mem.length = 35) (hetat : etat.length = 35) (is : List ℕ)
    (his : ∀ i ∈ is, 1 ≤ i ∧ i ≤ 34) {s : ShuttleManager} (hs : Invariant nbNavette s) :
    ∃ s', is.foldlM (traiterCapteur c mem etat) s = .ok s' ∧ Invariant nbNavette s' := by
  induction is generalizing s with
  | nil => exact ⟨s, rfl, hs⟩
  | cons i is ih =>
    obtain ⟨hi1, hi34⟩ := his i (by simp)
    obtain ⟨s₁, hs₁, hinv₁⟩ := traiterCapteur_spec hs c hmem hetat hi1 hi34
    obtain ⟨s₂, hs₂, hinv₂⟩ := ih (fun j hj => his j (by simp [hj])) hinv₁
    exact ⟨s₂, by simp [List.foldlM_cons, hs₁, bind, Except.bind, hs₂], hinv₂⟩

/-- One scan succeeds and keeps the invariant. -/
theorem scan_spec {nbNavette : ℕ} {s : ShuttleManager} (hs : Invariant nbNavette s)
    (c : Capteurs) : ∃ s', scan s c = .ok s' ∧ Invariant nbNavette s' := by
  obtain ⟨s', hs', hinv⟩ := foldlM_traiterCapteur_spec c hs.capteurs (length_lireCapteurs c)
    (List.range' 1 34) (fun i hi => by simp [List.mem_range'_1] at hi; omega) hs
  refine ⟨{ s' with etatCapteur := lireCapteurs c }, ?_, hinv.forme, by simp, hinv.compte⟩
  simp [scan, hs', bind, Except.bind, pure, Except.pure]

/-- Shuttles beyond the sixth are loaded nowhere. -/
theorem chargerNavettes_min (nbNavette : ℕ) :
    chargerNavettes nbNavette = chargerNavettes (min nbNavette 6) := by
  rcases Nat.le_total nbNavette 6 with h | h
  · rw [min_eq_left h]
  · rw [min_eq_right h]
    induction nbNavette, h using Nat.le_induction with
    | base => rfl
    | succ n hn ih =>
      rw [chargerNavettes, List.range_succ, List.foldl_append]
      change chargerNavette (chargerNavettes n) n = _
      rw [ih, chargerNavette, if_neg (by omega), if_neg (by omega), if_neg (by omega)]

/-- The queues are filled with the loaded shuttles. -/
theorem navettes_initial (nbNavette : ℕ) :
    (navettes (initial nbNavette).listeFile).Perm (chargees nbNavette) := by
  simp only [initial, chargerNavettes_min nbNavette, chargees]
  have hle : min nbNavette 6 ≤ 6 := min_le_right _ _
  generalize min nbNavette 6 = m at hle
  interval_cases m <;> decide

/-- Every slot of the table filled by `main` names sections that exist. -/
theorem forme_initiale (q : QueuesInitiales) : Forme (listeFileInitiale q) := by
  refine ⟨rfl, fun i hi1 hi34 => ?_⟩
  interval_cases i <;> refine ⟨_, rfl, ?_⟩ <;> simp [FileAttente.SuccesseursValides]

theorem invariant_initial (nbNavette : ℕ) : Invariant nbNavette (initial nbNavette) :=
  ⟨forme_initiale _, by simp [initial], [], by simpa using navettes_initial nbNavette, rfl⟩

/-- Every run of scans succeeds and keeps the invariant. -/
theorem executer_spec (nbNavette : ℕ) (images : List Capteurs) :
    ∃ s, executer nbNavette images = .ok s ∧ Invariant nbNavette s := by
  induction images using List.reverseRecOn with
  | nil => exact ⟨_, rfl, invariant_initial nbNavette⟩
  | append_singleton images c ih =>
    obtain ⟨s, hs, hinv⟩ := ih
    obtain ⟨s', hs', hinv'⟩ := scan_spec hinv c
    refine ⟨s', ?_, hinv'⟩
    rw [executer] at hs ⊢
    simp [List.foldlM_append, hs, bind, Except.bind, hs', pure, Except.pure]

theorem nodup_chargees (nbNavette : ℕ) : (chargees nbNavette).Nodup :=
  List.nodup_range.map fun _ _ h => by exact_mod_cast h

/-- What the invariant says of each shuttle number. -/
theorem Invariant.bilan {nbNavette : ℕ} {s : ShuttleManager} (hs : Invariant nbNavette s) :
    (∀ id ∈ chargees nbNavette, (navettes s.listeFile).count id ≤ 1) ∧
      (∀ id ∈ navettes s.listeFile, id ∈ chargees nbNavette) ∧
      ((chargees nbNavette).filter fun id => id ∉ navettes s.listeFile).length =
        s.pertesSignalees := by
  obtain ⟨perdues, hperm, hlen⟩ := hs.compte
  have hnodup : (navettes s.listeFile ++ perdues).Nodup :=
    hperm.nodup_iff.mpr (nodup_chargees nbNavette)
  obtain ⟨hn, hp, hdisj⟩ := List.nodup_append.mp hnodup
  refine ⟨fun id _ => List.nodup_iff_count_le_one.mp hn id,
    fun id hid => hperm.subset (List.mem_append_left _ hid), ?_⟩
  have hfilter := hperm.filter fun id => decide (id ∉ navettes s.listeFile)
  rw [← hfilter.length_eq, List.filter_append, List.filter_eq_nil_iff.mpr (by simp),
    List.filter_eq_self.mpr, List.nil_append, hlen]
  intro id hid
  simpa using fun hmem => hdisj id hmem id hid rfl

/-- A queue of the table holds standing shuttles. -/
theorem mem_navettes {l : List (Option FileAttente)} {i : ℕ} {f : FileAttente}
    (h : l[i]? = some (some f)) {id : ℤ} (hid : id ∈ f.queue) : id ∈ navettes l :=
  List.mem_flatMap.2 ⟨some f, List.mem_of_getElem? h, hid⟩

/-- The service answers `66` or the number of a shuttle of the cell. -/
theorem shuttleAtPoste_range {nbNavette : ℕ} {images : List Capteurs} {s : ShuttleManager}
    (hs : executer nbNavette images = .ok s) {num : ℕ} {robot position id : ℤ}
    (h : shuttleAtPoste s num robot position = .ok id) : id = 66 ∨ (0 ≤ id ∧ id ≤ 5) := by
  obtain ⟨s', hs', hinv⟩ := executer_spec nbNavette images
  cases hs.symm.trans hs'
  rw [shuttleAtPoste, fileDe] at h
  split at h
  · next f hf =>
    cases hq : f.queue with
    | nil =>
      simp only [bind, Except.bind, hq, if_true, pure, Except.pure, Except.ok.injEq] at h
      exact Or.inl h.symm
    | cons navette reste =>
      simp only [bind, Except.bind, hq, FileAttente.getFirstNavette, reduceCtorEq, if_false,
        Except.ok.injEq] at h
      subst h
      have hmem := hinv.bilan.2.1 navette (mem_navettes hf (by simp [hq]))
      simp only [chargees, List.mem_map, List.mem_range] at hmem
      obtain ⟨i, hi, rfl⟩ := hmem
      exact Or.inr (by omega)
  · cases h

/-- **Shuttle conservation.** For every number of shuttles and every sequence of sensor images, the
scans raise no fault, each loaded shuttle stands in at most one place of the 34 queues, no other
number stands there, and the loaded shuttles that stand nowhere are as many as the losses
published. -/
theorem navettes_conservees (nbNavette : ℕ) (images : List Capteurs) :
    ∃ s, executer nbNavette images = .ok s ∧
      (∀ id ∈ chargees nbNavette, (navettes s.listeFile).count id ≤ 1) ∧
      (∀ id ∈ navettes s.listeFile, id ∈ chargees nbNavette) ∧
      ((chargees nbNavette).filter fun id => id ∉ navettes s.listeFile).length =
        s.pertesSignalees := by
  obtain ⟨s, hs, hinv⟩ := executer_spec nbNavette images
  exact ⟨s, hs, hinv.bilan⟩

end Shuttles
