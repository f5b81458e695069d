import Dockboard.Engine.Schema.Basic

set_option autoImplicit false

/-! # Events and measurements

What the daemon tells in streams: what has happened, and what a container consumes. How the
memory of a container is divided up depends on the host, which knows one of two divisions.
-/

namespace Dockboard.Engine.Schema

open Document Document.Reader
open Dockboard.Text

/-- Something that has happened. -/
def event : Reader Document :=
  record [optional "Type" (oneOf ["builder", "config", "container", "daemon", "image", "network",
      "node", "plugin", "secret", "service", "volume"]),
    optional "Action" text,
    optional "Actor" (record [optional "ID" text, optional "Attributes" labels]),
    optional "scope" (oneOf ["local", "swarm"]), optional "time" int, optional "timeNano" int]

/-- What a container's processes have used of the processors. -/
def processors : Reader Document :=
  record [required "cpu_usage" (record [optional "percpu_usage" (list count),
      required "usage_in_usermode" count, required "total_usage" count,
      required "usage_in_kernelmode" count]),
    optional "system_cpu_usage" count, optional "online_cpus" count,
    required "throttling_data"
      (record (requiredAll count ["periods", "throttled_periods", "throttled_time"]))]

/-- What has passed through an interface. -/
def interface : Reader Document :=
  record (requiredAll count ["rx_dropped", "rx_bytes", "rx_errors", "tx_packets", "tx_dropped",
    "rx_packets", "tx_errors", "tx_bytes"])

/-- What has been read from or written to a device. -/
def transfer : Reader Document :=
  record [required "major" count, required "minor" count, required "op" text,
    required "value" count]

/-! ## Memory -/

/-- Memory as hosts divide it up that count each group of processes together with those below
it. -/
def hierarchicalMemory : Reader Document :=
  closedRecord (requiredAll count ["cache", "dirty", "mapped_file", "total_inactive_file",
      "pgpgout", "rss", "total_mapped_file", "pgpgin", "pgmajfault", "total_rss",
      "hierarchical_memory_limit", "total_pgfault", "total_active_file", "active_anon",
      "total_active_anon", "total_pgpgout", "total_cache", "total_dirty", "inactive_anon",
      "active_file", "pgfault", "inactive_file", "total_pgmajfault", "total_pgpgin", "rss_huge",
      "total_rss_huge", "writeback", "total_writeback", "unevictable", "total_unevictable",
      "total_inactive_anon"] ++
    optionalAll count ["hierarchical_memsw_limit", "shmem", "total_shmem"])

/-- Memory as other hosts divide it up. -/
def unifiedMemory : Reader Document :=
  closedRecord (requiredAll count ["anon", "file", "kernel_stack", "slab", "sock", "shmem",
    "file_mapped", "file_dirty", "file_writeback", "anon_thp", "inactive_anon", "active_anon",
    "inactive_file", "active_file", "unevictable", "slab_reclaimable", "slab_unreclaimable",
    "pgfault", "pgmajfault", "workingset_refault", "workingset_activate",
    "workingset_nodereclaim", "pgrefill", "pgscan", "pgsteal", "pgactivate", "pgdeactivate",
    "pglazyfree", "pglazyfreed", "thp_fault_alloc", "thp_collapse_alloc"])

/-- The memory of a container. -/
def memory : Reader Document :=
  record ([optional "stats" (choice 2 [hierarchicalMemory, unifiedMemory])] ++
    optionalAll count ["max_usage", "usage", "failcnt", "limit", "commit", "commit_peak",
      "commitbytes", "commitpeakbytes", "privateworkingset"])

/-! ## Measurements -/

/-- A text that is usually empty. -/
def usualText (name : String) (otherNames : List String := []) : ExpectedField :=
  { name, value := text, absence := .usual (.text ""), otherNames }

/-- What a container consumes. -/
def measurement : Reader Document :=
  record [required "read" text, required "preread" text, required "num_procs" count32,
    required "pids_stats" (record (optionalAll count ["current", "limit"])),
    optional "network" interface, optional "networks" (map interface),
    required "memory_stats" memory,
    required "blkio_stats" (record (optionalAll (list transfer)
      ["io_service_bytes_recursive", "io_serviced_recursive", "io_queue_recursive",
       "io_service_time_recursive", "io_wait_time_recursive", "io_merged_recursive",
       "io_time_recursive", "sectors_recursive"])),
    required "cpu_stats" processors, required "precpu_stats" processors,
    required "storage_stats" (record (optionalAll count ["read_count_normalized",
      "read_size_bytes", "write_count_normalized", "write_size_bytes"])),
    usualText "name", usualText "id" ["Id"]]

end Dockboard.Engine.Schema
