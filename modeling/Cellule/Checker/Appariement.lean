import Cellule.Checker.Diagnostics
import Cellule.Checker.Recherche
import Cellule.Lib.Fifo

/-! # Time of presence

`produit_entree` holds all the products that came in, in one list, and a product that leaves takes
the first entry of its number. So the list is one queue for each product, and `produit_duree` adds
up times of leaving less times of coming in, each of them once. Times are exact numbers here.
-/

namespace Checker

open Python Fifo

/-! ## The search -/

variable {F : Type}

/-- The subscript at which the search loop stops. -/
def chercher (P : ℤ) (l : List (ℤ × F)) : Option ℕ := l.findIdx? fun e => e.1 = P

/-- The search takes the first entry of a queue. -/
theorem takeFirst_of_sortirEntree {P : ℤ} {l : List (ℤ × F)} {r : F × List (ℤ × F)}
    (h : sortirEntree P l = .ok r) : takeFirst P 0 l = some r := by
  induction l generalizing r with
  | nil => cases h
  | cons e l ih =>
    obtain ⟨Q, entree⟩ := e
    unfold sortirEntree at h
    unfold takeFirst
    split_ifs at h ⊢ with hQ
    · cases h
      rfl
    · obtain ⟨r', hr', h⟩ := bind_eq_ok.1 h
      cases h
      rw [ih hr']
      rfl

/-- The loop stops at the head of the queue. -/
theorem chercher_eq (P : ℤ) (l : List (ℤ × F)) :
    chercher P l = (queue P 0 l).head?.map Prod.fst := by
  rw [← map_findIdx?]
  unfold chercher
  cases l.findIdx? fun e => e.1 = P with
  | none => rfl
  | some k => exact congrArg some (Nat.zero_add k).symm

/-! ## What the lines say -/

/-- A line of a product that comes in. -/
def EstNouveau (line : Str) : Prop := identifiant line = "NouveauProduit".toList

instance : DecidablePred EstNouveau := fun line =>
  inferInstanceAs (Decidable (identifiant line = "NouveauProduit".toList))

/-- The times of the lines about a product. -/
def tempsDe (ID : String) (temps : Str → Except Exception F) (p : ℤ) (lus : List Str) : List F :=
  lus.filterMap fun line => if EstLigne ID p line then (temps line).toOption else none

theorem tempsDe_snoc {ID : String} {temps : Str → Except Exception F} {line : Str} {t : F}
    (ht : temps line = .ok t) (p : ℤ) (lus : List Str) : tempsDe ID temps p (lus ++ [line]) =
      tempsDe ID temps p lus ++ if EstLigne ID p line then [t] else [] := by
  unfold tempsDe
  rw [List.filterMap_append, List.filterMap_cons, ht]
  split_ifs <;> rfl

theorem tempsDe_snoc_autre {ID : String} {temps : Str → Except Exception F} {p : ℤ} {line : Str}
    (hest : ¬EstLigne ID p line) (lus : List Str) :
    tempsDe ID temps p (lus ++ [line]) = tempsDe ID temps p lus := by
  unfold tempsDe
  rw [List.filterMap_append, List.filterMap_cons, if_neg hest]
  exact List.append_nil _

section

variable [Floating F] {line : Str} {P : ℤ} {time : F} {lus : List Str}

/-- The entry that a line writes. -/
def nouveauDe (line : Str) : Option (ℤ × F) :=
  if EstNouveau line then
    (do
      let P ← produitDe line
      let time ← tempsNouveau line
      pure (P, time) : Except Exception (ℤ × F)).toOption
  else none

/-- The entries that a log writes. -/
def nouveaux (lus : List Str) : List (ℤ × F) := lus.filterMap nouveauDe

theorem nouveauDe_eq_some : nouveauDe line = some (P, time) ↔
    EstNouveau line ∧ produitDe line = .ok P ∧ tempsNouveau line = .ok time := by
  unfold nouveauDe
  by_cases hID : EstNouveau line
  · rw [if_pos hID]
    constructor
    · intro h
      cases hP : produitDe line <;> cases ht : (tempsNouveau line : Except Exception F) <;>
        rw [hP, ht] at h <;> cases h
      exact ⟨hID, rfl, rfl⟩
    · rintro ⟨-, hP, ht⟩
      rw [hP, ht]
      rfl
  · rw [if_neg hID]
    exact iff_of_false (by simp) fun h => hID h.1

theorem nouveauDe_eq_none (hID : ¬EstNouveau line) : (nouveauDe line : Option (ℤ × F)) = none :=
  if_neg hID

theorem nouveaux_snoc (lus : List Str) (line : Str) :
    (nouveaux (lus ++ [line]) : List (ℤ × F)) = nouveaux lus ++ (nouveauDe line).toList := by
  unfold nouveaux
  rw [List.filterMap_append]
  congr 1

variable (F) in
/-- The lines of products that come in can be read. -/
def NouveauxLus (lus : List Str) : Prop :=
  ∀ line ∈ lus, EstNouveau line → ∃ x : ℤ × F, nouveauDe line = some x

/-- Such a line writes an entry, and the others do not. -/
theorem NouveauxLus.cas (h : NouveauxLus F (lus ++ [line])) : NouveauxLus F lus ∧
    (¬EstNouveau line ∧ (nouveauDe line : Option (ℤ × F)) = none ∨
      ∃ (P : ℤ) (time : F), EstNouveau line ∧ produitDe line = .ok P ∧
        nouveauDe line = some (P, time)) := by
  refine ⟨fun l hl => h l (List.mem_append_left _ hl), ?_⟩
  by_cases hID : EstNouveau line
  · obtain ⟨⟨P, time⟩, hx⟩ := h line (List.mem_append_right _ (List.mem_singleton_self line)) hID
    obtain ⟨-, hP, -⟩ := nouveauDe_eq_some.1 hx
    exact .inr ⟨P, time, hID, hP, hx⟩
  · exact .inl ⟨hID, nouveauDe_eq_none hID⟩

theorem length_nouveaux (h : NouveauxLus F lus) :
    (nouveaux lus : List (ℤ × F)).length = lus.countP fun l => EstNouveau l := by
  induction lus using List.reverseRecOn with
  | nil => rfl
  | append_singleton lus line ih =>
    obtain ⟨hlus, ⟨hID, hx⟩ | ⟨P, time, hID, -, hx⟩⟩ := h.cas
    · rw [nouveaux_snoc, hx, List.countP_append, List.length_append, ih hlus]
      simp [hID]
    · rw [nouveaux_snoc, hx, List.countP_append, List.length_append, ih hlus]
      simp [hID]

/-- The queue of a product has an entry for each of its lines. -/
theorem length_queue_nouveaux (h : NouveauxLus F lus) (p : ℤ) :
    (queue p 0 (nouveaux lus : List (ℤ × F))).length = nombreLignes "NouveauProduit" p lus := by
  induction lus using List.reverseRecOn with
  | nil => rfl
  | append_singleton lus line ih =>
    obtain ⟨hlus, ⟨hID, hx⟩ | ⟨P, time, hID, hP, hx⟩⟩ := h.cas
    · rw [nouveaux_snoc, hx, nombreLignes_snoc_autre hID, ← ih hlus]
      exact congrArg (fun l => (queue p 0 l).length) (List.append_nil _)
    · rw [nouveaux_snoc, hx, Option.toList_some, queue_concat, List.length_append, ih hlus,
        nombreLignes_snoc_de hID hP]
      split_ifs <;> rfl

/-- An entry of the queue was written by a line about the product, with the same rank. -/
theorem exists_ligne (h : NouveauxLus F lus) {p : ℤ} {m k : ℕ} {t : F}
    (hm : (queue p 0 (nouveaux lus))[m]? = some (k, t)) :
    ∃ i, At (EstLigne "NouveauProduit" p) lus i ∧ rank (EstLigne "NouveauProduit" p) lus i = m ∧
      rank EstNouveau lus i = k := by
  induction lus using List.reverseRecOn with
  | nil => cases hm
  | append_singleton lus line ih =>
    have havant : NouveauxLus F lus → (queue p 0 (nouveaux lus))[m]? = some (k, t) →
        ∃ i, At (EstLigne "NouveauProduit" p) (lus ++ [line]) i ∧
          rank (EstLigne "NouveauProduit" p) (lus ++ [line]) i = m ∧
            rank EstNouveau (lus ++ [line]) i = k := by
      intro hlus hm
      obtain ⟨i, hat, hrang, hentree⟩ := ih hlus hm
      have hle := (lt_length_of_at hat).le
      exact ⟨i, at_append hat _, (rank_append hle _).trans hrang, (rank_append hle _).trans hentree⟩
    obtain ⟨hlus, ⟨hID, hx⟩ | ⟨P, time, hID, hP, hx⟩⟩ := h.cas
    · rw [nouveaux_snoc, hx, Option.toList_none, List.append_nil] at hm
      exact havant hlus hm
    · rw [nouveaux_snoc, hx, Option.toList_some, queue_concat] at hm
      have hlen := length_queue_nouveaux hlus p
      rcases lt_or_ge m (queue p 0 (nouveaux lus : List (ℤ × F))).length with hlt | hge
      · rw [List.getElem?_append_left hlt] at hm
        exact havant hlus hm
      -- the entry of the line itself
      · rw [List.getElem?_append_right hge] at hm
        split_ifs at hm with hp
        · have hzero : m - (queue p 0 (nouveaux lus : List (ℤ × F))).length = 0 := by
            by_contra hne
            rw [List.getElem?_eq_none (by simpa using Nat.one_le_iff_ne_zero.2 hne)] at hm
            cases hm
          rw [hzero] at hm
          obtain ⟨hk, -⟩ := Prod.mk.inj (Option.some.inj hm)
          refine ⟨lus.length, at_concat ((estLigne_iff hID hP p).2 hp) lus, ?_, ?_⟩
          · refine (rank_concat lus line).trans ?_
            have hcompte : lus.countP (fun l => EstLigne "NouveauProduit" p l) =
                nombreLignes "NouveauProduit" p lus := rfl
            omega
          · rw [rank_concat, ← length_nouveaux (F := F) hlus]
            omega
        · cases hm

end

/-! ## One line -/

section

variable {c : Config ℚ} {lus : List Str} {line : Str} {j j' : Journal ℚ}

/-- What the variables hold once some lines are read: the queue of a product has lost an entry for
each product that left, and its time of coming in was taken from the time of leaving. -/
structure Presences (lus : List Str) (j : Journal ℚ) : Prop where
  lisibles : NouveauxLus ℚ lus
  taille : j.produitEntree.length = (nouveaux lus : List (ℤ × ℚ)).length
  files : ∀ p, p ≠ 0 → queue p 0 j.produitEntree =
    (queue p 0 (nouveaux lus)).drop (nombreLignes "Sortie" p lus)
  ordre : ∀ p, p ≠ 0 → nombreLignes "Sortie" p lus ≤ nombreLignes "NouveauProduit" p lus
  durees : ∀ p, 1 ≤ p → p ≤ 6 → j.produitDuree[(p - 1).toNat]? = some
    ((tempsDe "Sortie" tempsSortie p lus).sum -
      (((queue p 0 (nouveaux lus)).take (nombreLignes "Sortie" p lus)).map Prod.snd).sum)

theorem presences_initial : Presences [] Journal.initial where
  lisibles _ h := absurd h List.not_mem_nil
  taille := rfl
  files _ _ := rfl
  ordre _ _ := le_rfl
  durees p h₁ h₂ := by
    show (List.replicate 6 (0 : ℚ))[_]? = _
    rw [List.getElem?_replicate, if_pos (by omega)]
    exact congrArg some (sub_zero 0).symm

/-- A line that is not about a product. -/
theorem Presences.neutre (h : Presences lus j) (hnew : identifiant line ≠ "NouveauProduit".toList)
    (hsortie : ∀ p, p ≠ 0 → ¬EstLigne "Sortie" p line) (hentree : j'.produitEntree = j.produitEntree)
    (hduree : j'.produitDuree = j.produitDuree) : Presences (lus ++ [line]) j' := by
  have hnouveaux : (nouveaux (lus ++ [line]) : List (ℤ × ℚ)) = nouveaux lus := by
    rw [nouveaux_snoc, nouveauDe_eq_none hnew]
    exact List.append_nil _
  have hs : ∀ p, p ≠ 0 → nombreLignes "Sortie" p (lus ++ [line]) = nombreLignes "Sortie" p lus := by
    intro p hp
    rw [nombreLignes_snoc, if_neg (hsortie p hp), Nat.add_zero]
  refine ⟨?_, ?_, ?_, ?_, ?_⟩
  · intro l hl hID
    rcases List.mem_append.1 hl with hl | hl
    · exact h.lisibles l hl hID
    · exact absurd (List.mem_singleton.1 hl ▸ hID) hnew
  · rw [hentree, hnouveaux, h.taille]
  · intro p hp
    rw [hentree, hnouveaux, hs p hp, h.files p hp]
  · intro p hp
    rw [hs p hp, nombreLignes_snoc_autre hnew]
    exact h.ordre p hp
  · intro p hp₁ hp₂
    rw [hduree, hnouveaux, hs p (by omega), tempsDe_snoc_autre (hsortie p (by omega)),
      h.durees p hp₁ hp₂]

/-- A product that comes in enters its queue. -/
theorem Presences.nouveauProduit (h : Presences lus j) (hID : EstNouveau line)
    (hlu : NouveauProduitLu c j line j') : Presences (lus ++ [line]) j' := by
  obtain ⟨hsortie, -⟩ := identifiant_nouveau_ne hID
  obtain ⟨P, pType, n, attendus, time, nbProduitNew, hP, -, htime, -, -, -, rfl⟩ := hlu
  have hcontrole := Journal.verifierApparition_controle
    { j with nbProduitNew, produitEntree := j.produitEntree ++ [(P, time)] } attendus (n + 1) time P
    pType
  have hnouveau : nouveauDe line = some (P, time) := nouveauDe_eq_some.2 ⟨hID, hP, htime⟩
  have hnouveaux : (nouveaux (lus ++ [line]) : List (ℤ × ℚ)) = nouveaux lus ++ [(P, time)] := by
    rw [nouveaux_snoc, hnouveau]
    rfl
  have hs := fun p => nombreLignes_snoc_autre hsortie p lus
  -- as many entries were taken out as before, so they are not the last one
  have hordre : ∀ p, p ≠ 0 →
      nombreLignes "Sortie" p lus ≤ (queue p 0 (nouveaux lus : List (ℤ × ℚ))).length := by
    intro p hp
    rw [length_queue_nouveaux h.lisibles]
    exact h.ordre p hp
  rw [hcontrole.eq]
  refine ⟨?_, ?_, ?_, ?_, ?_⟩
  · intro l hl hIDl
    rcases List.mem_append.1 hl with hl | hl
    · exact h.lisibles l hl hIDl
    · exact ⟨_, List.mem_singleton.1 hl ▸ hnouveau⟩
  · show (j.produitEntree ++ [(P, time)]).length = _
    rw [hnouveaux, List.length_append, List.length_append, h.taille]
  · intro p hp
    show queue p 0 (j.produitEntree ++ [(P, time)]) = _
    rw [hnouveaux, hs, queue_concat, queue_concat, h.files p hp, h.taille,
      List.drop_append_of_le_length (hordre p hp)]
  · intro p hp
    rw [hs, nombreLignes_snoc]
    exact (h.ordre p hp).trans (Nat.le_add_right _ _)
  · intro p hp₁ hp₂
    show j.produitDuree[_]? = _
    rw [hnouveaux, hs, queue_concat, List.take_append_of_le_length (hordre p (by omega)),
      tempsDe_snoc_autre (not_estLigne hsortie p), h.durees p hp₁ hp₂]

/-- What a `Sortie` line does to the entries and to the times. -/
theorem Presences.sortie (h : Presences lus j) (hID : identifiant line = "Sortie".toList)
    (hlue : SortieLue c j line j') : Presences (lus ++ [line]) j' := by
  have hnew := (identifiant_sortie_ne hID).1
  cases hlue with
  | vide s hs hP attendus hatt heq =>
    have hproduit := (analyserSortie_produit hs).1
    rw [hP] at hproduit
    have hvide : ∀ p, p ≠ 0 → ¬EstLigne "Sortie" p line := by
      intro p hp hest
      exact hp (Except.ok.inj (hest.2.symm.trans hproduit))
    rw [heq]
    split_ifs
    · exact h.neutre hnew hvide rfl rfl
    · exact h.neutre hnew hvide rfl rfl
  | produit s hs hP n attendus attendu nbProduitLog r duree produitDuree hn hset hr hd hduree hatt
      hattendu heq =>
    obtain ⟨hproduit, -, htime, -⟩ := analyserSortie_produit hs
    have hcontrole := Journal.verifierSortie_controle
      { j with nbProduitLog, produitEntree := r.2, produitDuree } attendus (n + 1) attendu
      (s.P :: (s.D.take maxTaches).map Prod.fst) s
    have hentree : j'.produitEntree = r.2 := by
      rw [heq]
      exact congrArg Journal.produitEntree hcontrole.eq
    have hdurees : j'.produitDuree = produitDuree := by
      rw [heq]
      exact congrArg Journal.produitDuree hcontrole.eq
    have hnouveaux : (nouveaux (lus ++ [line]) : List (ℤ × ℚ)) = nouveaux lus := by
      rw [nouveaux_snoc, nouveauDe_eq_none hnew]
      exact List.append_nil _
    have hs' := fun p => nombreLignes_snoc_de hID hproduit p lus
    -- the head of the queue of the product
    have htete := takeFirst_of_sortirEntree hr
    obtain ⟨k, hk⟩ := queue_takeFirst htete (Ne.symm hP) 0
    rw [h.files s.P hP] at hk
    have hget : (queue s.P 0 (nouveaux lus : List (ℤ × ℚ)))[nombreLignes "Sortie" s.P lus]? =
        some (k, r.1) := by
      rw [← List.head?_drop, hk]
      rfl
    have hlt := (List.getElem?_eq_some_iff.1 hget).1
    rw [length_queue_nouveaux h.lisibles] at hlt
    refine ⟨?_, ?_, ?_, ?_, ?_⟩
    · intro l hl hIDl
      rcases List.mem_append.1 hl with hl | hl
      · exact h.lisibles l hl hIDl
      · exact absurd (List.mem_singleton.1 hl ▸ hIDl) hnew
    · rw [hentree, hnouveaux, length_takeFirst htete, h.taille]
    · intro p hp
      rw [hentree, hnouveaux, hs']
      by_cases hPp : s.P = p
      · subst hPp
        rw [if_pos rfl, ← List.tail_drop, hk]
        rfl
      · rw [if_neg hPp, queue_takeFirst_of_ne htete hPp (Ne.symm hp), h.files p hp]
        rfl
    · intro p hp
      rw [hs', nombreLignes_snoc_autre hnew]
      have hordre := h.ordre p hp
      split_ifs with hPp
      · subst hPp
        omega
      · omega
    · intro p hp₁ hp₂
      have hP₁ : 1 ≤ s.P := by
        have hnonneg := nonneg_of_produitDe hproduit
        omega
      obtain ⟨hlen, hduree⟩ := eq_set_of_setItem (by omega) hduree
      have hd := getElem?_of_item (by omega) hd
      rw [hdurees, hnouveaux, hs', hduree, List.getElem?_set]
      by_cases hPp : s.P = p
      · subst hPp
        rw [if_pos rfl, if_pos hlen, if_pos rfl, tempsDe_snoc (t := s.time) htime,
          if_pos ⟨hID, hproduit⟩, List.take_add_one, hget]
        rw [h.durees s.P hp₁ hp₂, Option.some_inj] at hd
        have hsomme : Floating.add duree (Floating.sub s.time r.1) = duree + (s.time - r.1) := rfl
        rw [hsomme, ← hd]
        simp only [List.sum_append, List.map_append, Option.toList_some, List.map_cons, List.map_nil,
          List.sum_cons, List.sum_nil]
        ring_nf
      · rw [if_neg (by omega), if_neg hPp, tempsDe_snoc_autre fun h =>
          hPp ((estLigne_iff hID hproduit p).1 h),
          h.durees p hp₁ hp₂]
        rfl

/-- One turn of the loop. -/
theorem Presences.lireLigne (h : Presences lus j) (hok : Journal.lireLigne c j line = .ok j') :
    Presences (lus ++ [line]) j' := by
  cases Journal.lireLigne_inv hok with
  | erreur hID m hm poste heq =>
    obtain ⟨-, h₂, h₃⟩ := identifiant_erreur_ne hID
    subst heq
    exact h.neutre h₂ (fun p _ => not_estLigne h₃ p) rfl rfl
  | tempoT hID hok =>
    obtain ⟨h₂, h₃, -⟩ := identifiant_tempoT_ne hID
    obtain ⟨x, rfl⟩ := Journal.lireTempoT_inv hok
    exact h.neutre h₂ (fun p _ => not_estLigne h₃ p) rfl rfl
  | nouveauProduit hID hlu => exact h.nouveauProduit hID hlu
  | sortie hID hlue => exact h.sortie hID hlue
  | autre hID h₁ h₂ h₃ heq =>
    subst heq
    exact h.neutre h₂ (fun p _ => not_estLigne h₃ p) rfl rfl

/-- The log. -/
theorem Presences.lireLog {Log : List Str} (hok : Journal.lireLog c .initial Log = .ok j) :
    Presences Log j := by
  induction Log using List.reverseRecOn generalizing j with
  | nil =>
    cases hok
    exact presences_initial
  | append_singleton Log line ih =>
    rw [lireLog_snoc] at hok
    obtain ⟨j₁, h₁, hok⟩ := bind_eq_ok.1 hok
    exact (ih h₁).lireLigne hok

/-! ## Who left with which line -/

/-- In the run of the script over the log, the search at the `Sortie` line `i` stops at the entry
that the line `i'` wrote: each line of a product that comes in writes one entry, after the
others. -/
def Apparie (c : Config ℚ) (Log : List Str) (i i' : ℕ) : Prop :=
  ∃ (j : Journal ℚ) (p : ℤ), Journal.lireLog c .initial (Log.take i) = .ok j ∧ p ≠ 0 ∧
    At (EstLigne "Sortie" p) Log i ∧ At EstNouveau Log i' ∧
    chercher p j.produitEntree = some (rank EstNouveau Log i')

/-- The products that leave take the lines of those that came in, each one the oldest that is
left. -/
structure Appariement (c : Config ℚ) (Log : List Str) : Prop where
  plus_ancien : ∀ i p, p ≠ 0 → At (EstLigne "Sortie" p) Log i → ∃ i' < i, Apparie c Log i i' ∧
    At (EstLigne "NouveauProduit" p) Log i' ∧ (∀ i₀ < i, ¬Apparie c Log i₀ i') ∧
    ∀ i'' < i', At (EstLigne "NouveauProduit" p) Log i'' → ∃ i₀ < i, Apparie c Log i₀ i''
  un_seul : ∀ i i' i'', Apparie c Log i i' → Apparie c Log i i'' → i' = i''
  une_fois : ∀ i₁ i₂ i', Apparie c Log i₁ i' → Apparie c Log i₂ i' → i₁ = i₂

/-- The entry at which the search stops was written by the line about the product that has the rank
of the line that leaves. -/
theorem entree_trouvee {Log : List Str} (hok : ∃ j, Journal.lireLog c .initial Log = .ok j) {i : ℕ}
    {p : ℤ} (hp : p ≠ 0) (hat : At (EstLigne "Sortie" p) Log i) :
    ∃ (j : Journal ℚ) (i' : ℕ), Journal.lireLog c .initial (Log.take i) = .ok j ∧ i' < i ∧
      At (EstLigne "NouveauProduit" p) Log i' ∧
      rank (EstLigne "NouveauProduit" p) Log i' = rank (EstLigne "Sortie" p) Log i ∧
      chercher p j.produitEntree = some (rank EstNouveau Log i') := by
  obtain ⟨line, hline, hest⟩ := hat
  have hlt := (List.getElem?_eq_some_iff.1 hline).1
  have hlen : (Log.take i).length = i := List.length_take_of_le hlt.le
  have hdebut : Log.take i ++ [line] <+: Log := by
    have htake : Log.take (i + 1) = Log.take i ++ [line] := by
      rw [List.take_add_one, hline]
      rfl
    rw [← htake]
    exact List.take_prefix _ _
  -- the line is read in the run
  obtain ⟨j₁, hj₁⟩ := lireLog_prefixe hdebut hok
  rw [lireLog_snoc] at hj₁
  obtain ⟨j, hj, hj₁⟩ := bind_eq_ok.1 hj₁
  have hpresences := Presences.lireLog hj
  rw [Journal.lireLigne_sortie hest.1] at hj₁
  obtain ⟨k, t, hk⟩ : ∃ k t, (queue p 0 j.produitEntree).head? = some (k, t) := by
    cases Journal.lireSortie_eq_ok.1 hj₁ with
    | produit s hs hP n attendus attendu nbProduitLog r duree produitDuree hn hset hr =>
      obtain rfl : p = s.P := Except.ok.inj (hest.2.symm.trans (analyserSortie_produit hs).1)
      obtain ⟨k, hk⟩ := queue_takeFirst (takeFirst_of_sortirEntree hr) (Ne.symm hP) 0
      exact ⟨k, r.1, by rw [hk]; rfl⟩
    | vide s hs hP =>
      exact absurd (Except.ok.inj (hest.2.symm.trans (analyserSortie_produit hs).1) |>.trans hP) hp
  have hget := hk
  rw [hpresences.files p hp, List.head?_drop] at hget
  obtain ⟨i', hat', hrang, hentree⟩ := exists_ligne hpresences.lisibles hget
  have hi' := lt_length_of_at hat'
  rw [hlen] at hi'
  -- the places are those of the whole log
  have hLog : Log = Log.take i ++ Log.drop i := (List.take_append_drop i Log).symm
  have hrangs : ∀ (q : Str → Prop) [DecidablePred q], rank q Log i' = rank q (Log.take i) i' := by
    intro q _
    conv_lhs => rw [hLog]
    exact rank_append (hi'.le.trans_eq hlen.symm) _
  refine ⟨j, i', hj, hi', ?_, ?_, ?_⟩
  · rw [hLog]
    exact at_append hat' _
  · rw [hrangs, hrang]
    rfl
  · rw [chercher_eq, hk, hrangs, hentree]
    rfl

theorem estNouveau_of_estLigne {p : ℤ} {Log : List Str} {i : ℕ}
    (h : At (EstLigne "NouveauProduit" p) Log i) : At EstNouveau Log i := by
  obtain ⟨line, hline, hest⟩ := h
  exact ⟨line, hline, hest.1⟩

/-- The matching, as an equality of ranks. -/
theorem apparie_iff {Log : List Str} (hok : ∃ j, Journal.lireLog c .initial Log = .ok j) {i i' : ℕ} :
    Apparie c Log i i' ↔ ∃ p, p ≠ 0 ∧ At (EstLigne "Sortie" p) Log i ∧
      At (EstLigne "NouveauProduit" p) Log i' ∧
      rank (EstLigne "NouveauProduit" p) Log i' = rank (EstLigne "Sortie" p) Log i := by
  constructor
  · rintro ⟨j, p, hj, hp, hat, hnouveau, hchercher⟩
    obtain ⟨j₁, i₁, hj₁, -, hat₁, hrang, hchercher₁⟩ := entree_trouvee hok hp hat
    obtain rfl : j = j₁ := Except.ok.inj (hj.symm.trans hj₁)
    have hrangs := Option.some.inj (hchercher.symm.trans hchercher₁)
    obtain rfl := eq_of_rank hnouveau (estNouveau_of_estLigne hat₁) hrangs
    exact ⟨p, hp, hat, hat₁, hrang⟩
  · rintro ⟨p, hp, hat, hat', hrang⟩
    obtain ⟨j, i₁, hj, -, hat₁, hrang₁, hchercher⟩ := entree_trouvee hok hp hat
    obtain rfl := eq_of_rank hat' hat₁ (hrang.trans hrang₁.symm)
    exact ⟨j, p, hj, hp, hat, estNouveau_of_estLigne hat', hchercher⟩

/-- A line is about one product. -/
theorem produit_of_at {ID : String} {p q : ℤ} {Log : List Str} {i : ℕ} (hp : At (EstLigne ID p) Log i)
    (hq : At (EstLigne ID q) Log i) : p = q := by
  obtain ⟨line, hline, hest⟩ := hp
  obtain ⟨line', hline', hest'⟩ := hq
  obtain rfl := Option.some.inj (hline.symm.trans hline')
  exact Except.ok.inj (hest.2.symm.trans hest'.2)

theorem appariement {Log : List Str} (hok : ∃ j, Journal.lireLog c .initial Log = .ok j) :
    Appariement c Log where
  plus_ancien := by
    intro i p hp hat
    obtain ⟨j, i', -, hlt, hat', hrang, -⟩ := entree_trouvee hok hp hat
    refine ⟨i', hlt, (apparie_iff hok).2 ⟨p, hp, hat, hat', hrang⟩, hat', ?_, ?_⟩
    -- the lines that left before have a smaller rank
    · intro i₀ hi₀ happarie
      obtain ⟨q, -, hat₀, hat₀', hrang₀⟩ := (apparie_iff hok).1 happarie
      obtain rfl := produit_of_at hat' hat₀'
      have hlt₀ := rank_lt_rank hat₀ hi₀
      omega
    · intro i'' hi'' hat''
      have hlt'' := rank_lt_rank hat'' hi''
      rw [hrang] at hlt''
      obtain ⟨i₀, hi₀, hat₀, hrang₀⟩ := exists_at hlt''
      exact ⟨i₀, hi₀, (apparie_iff hok).2 ⟨p, hp, hat₀, hat'', hrang₀.symm⟩⟩
  un_seul := by
    intro i i' i'' h h'
    obtain ⟨p, -, hat, hat', hrang⟩ := (apparie_iff hok).1 h
    obtain ⟨q, -, hatq, hat'', hrang'⟩ := (apparie_iff hok).1 h'
    obtain rfl := produit_of_at hat hatq
    exact eq_of_rank hat' hat'' (hrang.trans hrang'.symm)
  une_fois := by
    intro i₁ i₂ i' h h'
    obtain ⟨p, -, hat₁, hat', hrang⟩ := (apparie_iff hok).1 h
    obtain ⟨q, -, hat₂, hat'', hrang'⟩ := (apparie_iff hok).1 h'
    obtain rfl := produit_of_at hat' hat''
    exact eq_of_rank hat₁ hat₂ (hrang.symm.trans hrang')

/-! ## The means -/

/-- The queue of a product holds the times of its lines. -/
theorem map_snd_queue {lus : List Str} (h : NouveauxLus ℚ lus) (p : ℤ) :
    (queue p 0 (nouveaux lus : List (ℤ × ℚ))).map Prod.snd =
      tempsDe "NouveauProduit" tempsNouveau p lus := by
  induction lus using List.reverseRecOn with
  | nil => rfl
  | append_singleton lus line ih =>
    obtain ⟨hlus, ⟨hID, hx⟩ | ⟨P, time, hID, hP, hx⟩⟩ := h.cas
    · rw [nouveaux_snoc, hx, tempsDe_snoc_autre (not_estLigne hID p), ← ih hlus]
      exact congrArg (fun l => (queue p 0 l).map Prod.snd) (List.append_nil _)
    · obtain ⟨-, -, htime⟩ := nouveauDe_eq_some.1 hx
      rw [nouveaux_snoc, hx, Option.toList_some, queue_concat, List.map_append, ih hlus,
        tempsDe_snoc htime]
      simp only [estLigne_iff hID hP p]
      split_ifs <;> rfl

/-- **Times of presence**: each product that leaves takes the oldest line of its number that is
left, no line is taken twice, and where all products that came in left again, the mean is the sum of
the times of leaving less the sum of the times of coming in, by their number. Empty evacuations and
products of other numbers do not matter. -/
theorem temps_presence {contenu Log : List Str} (hok : checker contenu Log = .ok (c, j))
    (hconfig : c.erreurConfig = 0) : Appariement c Log ∧
      ∀ p, 1 ≤ p → p ≤ 6 → 0 < nombreLignes "Sortie" p Log →
        nombreLignes "Sortie" p Log = nombreLignes "NouveauProduit" p Log →
        j.produitDuree[(p - 1).toNat]? = some
          (((tempsDe "Sortie" tempsSortie p Log : List ℚ).sum -
            (tempsDe "NouveauProduit" tempsNouveau p Log : List ℚ).sum) /
              (nombreLignes "Sortie" p Log : ℚ)) := by
  obtain ⟨temps, tempsLog, j₁, hc, -, hj, -, rfl⟩ := checker_inv hok hconfig
  refine ⟨appariement ⟨j₁, hj⟩, ?_⟩
  intro p hp₁ hp₂ hpos hnombres
  have hpresences := Presences.lireLog hj
  have hnb : c.nbProduit.length = 6 := Config.length_nbProduit hc hconfig
  have hsortis := (constat_lireLog hnb hj).2.sortis p hp₁ hp₂
  have hduree := hpresences.durees p hp₁ hp₂
  -- all entries of the product were taken out
  rw [hnombres, ← length_queue_nouveaux hpresences.lisibles, List.take_length,
    map_snd_queue hpresences.lisibles] at hduree
  have hcontrole := (Journal.comparer_controle c j₁.moyennes temps tempsLog).trans
    (Journal.conclure_controle c _)
  have hmoyennes : ((j₁.moyennes.comparer c temps tempsLog).conclure c).produitDuree =
      j₁.moyennes.produitDuree := by
    rw [hcontrole.eq]
  rw [hmoyennes]
  unfold Journal.moyennes
  dsimp only
  rw [List.getElem?_zipWith, hduree, hsortis]
  dsimp only
  rw [if_pos (by omega)]
  rfl

end

/-- A log where two products 2 leave, and a product 3 that came in between leaves first. -/
def logCroise : List Str :=
  ["NouveauProduit: 24 :10.00\n".toList, "NouveauProduit: 34 :12.00\n".toList,
    "NouveauProduit: 24 :20.00\n".toList, "Sortie :34 :13 :0 :0 :30.00\n".toList,
    "Sortie :24 :13 :43 :0 :40.00\n".toList, "Sortie :24 :13 :43 :0 :60.00\n".toList]

/-- The mean of the two is 35 s. -/
theorem temps_presence_croise : ∃ (c : Config ℚ) (j : Journal ℚ),
    checker configUnProduit logCroise = .ok (c, j) ∧ Appariement c logCroise ∧
      j.produitDuree[1]? = some 35 := by
  have hconfig : (checker (F := ℚ) configUnProduit logCroise).map (fun x => x.1.erreurConfig) =
      .ok 0 := by decide +kernel
  cases hok : checker (F := ℚ) configUnProduit logCroise with
  | error e =>
    rw [hok] at hconfig
    cases hconfig
  | ok x =>
    rw [hok] at hconfig
    obtain ⟨happarie, hmoyenne⟩ := temps_presence hok (Except.ok.inj hconfig)
    have hmoyenne := hmoyenne 2 (by decide) (by decide) (by decide +kernel) (by decide +kernel)
    refine ⟨x.1, x.2, rfl, happarie, hmoyenne.trans ?_⟩
    decide +kernel

end Checker
