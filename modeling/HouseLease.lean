import HouseLease.Main
import HouseLease.Visit.World
import HouseLease.Proofs.Record.ListGrammar
import HouseLease.Proofs.Record.ListText
import HouseLease.Proofs.Calendar.DayNumbers
import HouseLease.Proofs.Calendar.RecordDate
import HouseLease.Proofs.Record.Rewriting
import HouseLease.Proofs.Record.Keys
import HouseLease.Proofs.Record.Layout
import HouseLease.Proofs.Record.Names
import HouseLease.Proofs.Visit.Looking
import HouseLease.Proofs.Visit.Drafts
import HouseLease.Proofs.Visit.Quiet
import HouseLease.Proofs.Visit.Likeness
import HouseLease.Proofs.Visit.Renewal
import HouseLease.Proofs.Visit.Faults
import HouseLease.Proofs.Visit.Ranges
import HouseLease.Proofs.Visit.Aborts
import HouseLease.Proofs.Visit.Refusals
import HouseLease.Proofs.Trade.Triggers
import HouseLease.Proofs.Trade.Balance
import HouseLease.Proofs.World.Lists
import HouseLease.Proofs.House.Admission
import HouseLease.Proofs.World.Cap
import HouseLease.Proofs.World.Reach
import HouseLease.Proofs.World.Growth
import HouseLease.Proofs.World.Listed
import HouseLease.Proofs.Visit.Kindred
import HouseLease.Proofs.World.Players
import HouseLease.Proofs.World.WayBack
import HouseLease.Proofs.Console.Unreadable
import HouseLease.Proofs.Console.Changes
import HouseLease.Proofs.Console.Failures
import HouseLease.Proofs.Trade.Charges
import HouseLease.Proofs.Trade.Prepaying
import HouseLease.Proofs.Settings.ReadBack
import HouseLease.Proofs.Trade.Arrears
import HouseLease.Proofs.Trade.Unaffordable
import HouseLease.Proofs.Visit.Targets
import HouseLease.Proofs.Console.Readings
import HouseLease.Proofs.Visit.Labels
import HouseLease.Proofs.Visit.Expiry
import HouseLease.Proofs.Visit.Portal
