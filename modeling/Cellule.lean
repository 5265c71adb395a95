import Cellule.Lib.Prog
import Cellule.Lib.Machine
import Cellule.Lib.Latch
import Cellule.Lib.Rely
import Cellule.Lib.Contract
import Cellule.Lib.Registre
import Cellule.Lib.Snapshot
import Cellule.Lib.Mailbox
import Cellule.Lib.Python
import Cellule.Lib.Relay
import Cellule.Lib.LastWrite
import Cellule.Lib.Edges
import Cellule.Lib.Fifo
import Cellule.Lib.History
import Cellule.Lib.Loop
import Cellule.Lib.Progress
import Cellule.Lib.Stutter
import Cellule.Lib.Istream
import Cellule.Capteurs
import Cellule.Shuttles.FileAttente
import Cellule.Shuttles.ShuttleManager
import Cellule.Shuttles.Conservation
import Cellule.Shuttles.Passage
import Cellule.Shuttles.Fronts
import Cellule.Shuttles.Service
import Cellule.Robots.Poste
import Cellule.Robots.Pile
import Cellule.Robots.Robot
import Cellule.Robots.Commandes
import Cellule.Robots.Noeud
import Cellule.Robots.Jetons
import Cellule.Robots.Calme
import Cellule.Robots.Mouvement
import Cellule.CommandeLocale.VrepController
import Cellule.Atelier.Simulateur
import Cellule.Atelier.Routines
import Cellule.Atelier.Cellule
import Cellule.Atelier.Vue
import Cellule.Atelier.Taches
import Cellule.Atelier.Bilan
import Cellule.Commande.RobotsInterface
import Cellule.Commande.BrasPince
import Cellule.Commande.Rejet
import Cellule.Commande.Petri
import Cellule.Commande.Discipline
import Cellule.Commande.Marquage
import Cellule.Commande.Programme
import Cellule.Commande.Achevement
import Cellule.Commande.Actionneurs
import Cellule.Commande.Commande
import Cellule.CommandeLocale.InOutController
import Cellule.CommandeLocale.Chemin
import Cellule.CommandeLocale.DernieresCommandes
import Cellule.CommandeLocale.Console
import Cellule.Reseau.Noeuds
import Cellule.Reseau.TacheFinie
import Cellule.Reseau.Verrous
import Cellule.Reseau.Dialogue
import Cellule.Reseau.Pince
import Cellule.Reseau.Ajout
import Cellule.Reseau.Bras
import Cellule.CommandeLocale.LogManager
import Cellule.CommandeLocale.NoeudLog
import Cellule.Atelier.Entrees
import Cellule.Atelier.Empilement
import Cellule.Atelier.Deplacement
import Cellule.Atelier.Recit
import Cellule.Atelier.TachesComptees
import Cellule.Atelier.TachesFinies
import Cellule.Checker.Config
import Cellule.Checker.Entete
import Cellule.Checker.Journal
import Cellule.Checker.Declarations
import Cellule.Checker.Correction
import Cellule.Checker.Decodage
import Cellule.Checker.Verdict
import Cellule.Checker.Recherche
import Cellule.Checker.Attestation
import Cellule.Checker.Durees
import Cellule.Checker.Presentation
import Cellule.Checker.Signalement
import Cellule.Checker.Completude
import Cellule.Checker.Comparaison
import Cellule.Checker.Lecture
import Cellule.Checker.Fabrication
import Cellule.Checker.Inachevees
import Cellule.Checker.Diagnostics
import Cellule.Checker.Appariement
import Cellule.Checker.EvacuationVide
import Cellule.Checker.Tampons
import Cellule.Aiguillages.Aiguillage
import Cellule.Aiguillages.DernierOrdre
import Cellule.Aiguillages.Decodeurs
import Cellule.Communication.Pont
import Cellule.Atelier.Historique
import Cellule.Atelier.TachesAnnoncees
import Cellule.Checker.Acceptation
import Cellule.Atelier.Reponses
import Cellule.Lib.Deferred
import Cellule.Usine.Plan
import Cellule.Usine.Realisation
import Cellule.Usine.Systeme
import Cellule.Usine.Chantier
import Cellule.Usine.Comptes
import Cellule.Usine.Production
import Cellule.Usine.Achevement
