set_option autoImplicit false

/-!
# Known operations

The names of runtime calls that belong together: bookkeeping and queries that are not worth a span,
and the classes that a filter may name.
-/
namespace SpanWeave.Catalogue

def bookkeeping : List String :=
  ["__hipPushCallConfiguration", "__hipPopCallConfiguration", "hipDeviceEnablePeerAccess",
   "hipImportExternalMemory", "hipDestroyExternalMemory"]

/-- Queries, far too frequent to be useful spans. -/
def queries : List String :=
  ["hsa_init", "hsa_shut_down", "hsa_agent_get_exception_policies", "hsa_agent_get_info",
   "hsa_amd_agent_iterate_memory_pools", "hsa_amd_agent_memory_pool_get_info",
   "hsa_amd_coherency_get_type", "hsa_amd_memory_pool_get_info", "hsa_amd_pointer_info",
   "hsa_amd_pointer_info_set_userdata", "hsa_amd_profiling_async_copy_enable",
   "hsa_amd_profiling_get_async_copy_time", "hsa_amd_profiling_get_dispatch_time",
   "hsa_amd_profiling_set_profiler_enabled", "hsa_cache_get_info", "hsa_code_object_get_info",
   "hsa_code_object_get_symbol", "hsa_code_object_get_symbol_from_name",
   "hsa_code_object_reader_create_from_memory", "hsa_code_symbol_get_info",
   "hsa_executable_create_alt", "hsa_executable_freeze", "hsa_executable_get_info",
   "hsa_executable_get_symbol", "hsa_executable_get_symbol_by_name",
   "hsa_executable_symbol_get_info", "hsa_extension_get_name", "hsa_ext_image_data_get_info",
   "hsa_ext_image_data_get_info_with_layout", "hsa_ext_image_get_capability",
   "hsa_ext_image_get_capability_with_layout", "hsa_isa_get_exception_policies",
   "hsa_isa_get_info", "hsa_isa_get_info_alt", "hsa_isa_get_round_method", "hsa_region_get_info",
   "hsa_system_extension_supported", "hsa_system_get_extension_table", "hsa_system_get_info",
   "hsa_system_get_major_extension_table", "hsa_wavefront_get_info"]

def launches : List String :=
  ["hipLaunchKernel", "hipLaunchCooperativeKernel", "hipLaunchCooperativeKernelMultiDevice",
   "hipHccModuleLaunchKernel", "hipModuleLaunchKernel", "hipExtModuleLaunchKernel",
   "hipExtLaunchKernel", "hipExtLaunchMultiKernelMultiDevice"]

def copies : List String :=
  ["hipMemcpy", "hipMemcpyAsync", "hipMemcpyDtoD", "hipMemcpyDtoDAsync", "hipMemcpyDtoH",
   "hipMemcpyDtoHAsync", "hipMemcpyHtoD", "hipMemcpyHtoDAsync", "hipMemcpy2D", "hipMemcpy2DAsync",
   "hipMemcpyPeer", "hipMemcpyPeerAsync", "hipMemset", "hipMemsetAsync"]

def allocations : List String :=
  ["hipMalloc", "hipMallocManaged", "hipHostMalloc", "hipFree", "hipHostFree", "hipMallocAsync",
   "hipFreeAsync"]

def isLaunch (name : String) : Bool := launches.contains name

def expand (word : String) : List String :=
  if word = "launch" then launches
  else if word = "memcpy" then copies
  else if word = "memory" then allocations
  else [word]

end SpanWeave.Catalogue
