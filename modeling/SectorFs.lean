import SectorFs.Console.Tables
import SectorFs.Console.Lock
import SectorFs.Console.Cache
import SectorFs.Console.Disk
import SectorFs.Proofs.Cache.Interleaving
import SectorFs.Proofs.Cache.Moments
import SectorFs.Proofs.Cache.Durability
import SectorFs.Proofs.Session.Ownership
import SectorFs.Proofs.Session.Persistence
import SectorFs.Proofs.Session.Separation
import SectorFs.Proofs.Session.Stored
import SectorFs.Proofs.Session.Oblivious
import SectorFs.Proofs.File.Retry
import SectorFs.Proofs.Session.Rollback
import SectorFs.Proofs.Cache.Ageing
import SectorFs.Proofs.File.Mapping
import SectorFs.Proofs.Cache.Accounts
import SectorFs.Proofs.Disk.FirstFit
import SectorFs.Proofs.Session.Reads
import SectorFs.Proofs.File.Inverse
import SectorFs.Proofs.Session.Format
import SectorFs.Proofs.Disk.Codec
import SectorFs.Proofs.Session.Vacant
import SectorFs.Proofs.Session.Limit
