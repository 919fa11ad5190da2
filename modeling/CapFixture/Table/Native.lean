import CapFixture.Table.Parser

/-!
# The native table

The signature table of the runtime's native entry points, which is used when no other is given.
-/

namespace CapFixture.Table.Native

/-- The lines of the table, without their newlines. -/
def lines : List String :=
  [ "# Native entry points reachable from pizlonated code.",
    "#",
    "# Each line declares `[throws] <return type> <name>(<arg types>);`. Argument",
    "# types may be followed by a trailing `...` for variadic calls. Declarations",
    "# inside `if <DEFINE> \x7b ... \x7d` are only compiled when the define is set.",
    "",
    "filc_ptr zgc_alloc(size_t);",
    "filc_ptr zgc_aligned_alloc(size_t, size_t);",
    "filc_ptr zgc_realloc(filc_ptr, size_t);",
    "filc_ptr zgc_aligned_realloc(filc_ptr, size_t, size_t);",
    "void zgc_free(filc_ptr);",
    "filc_ptr zgetlower(filc_ptr);",
    "filc_ptr zgetupper(filc_ptr);",
    "bool zhasvalidcap(filc_ptr);",
    "bool zisunset(filc_ptr);",
    "bool zisint(filc_ptr);",
    "int zptrphase(filc_ptr);",
    "filc_ptr zptrtable_new();",
    "size_t zptrtable_encode(filc_ptr, filc_ptr);",
    "filc_ptr zptrtable_decode(filc_ptr, size_t);",
    "filc_ptr zexact_ptrtable_new();",
    "size_t zexact_ptrtable_encode(filc_ptr, filc_ptr);",
    "filc_ptr zexact_ptrtable_decode(filc_ptr, size_t);",
    "size_t ztesting_get_num_ptrtables();",
    "filc_ptr zptr_to_new_string(filc_ptr);",
    "filc_ptr zcall(filc_ptr, filc_ptr, size_t);",
    "void zmemset(filc_ptr, unsigned, size_t);",
    "void zmemmove(filc_ptr, filc_ptr, size_t);",
    "int zmemcmp(filc_ptr, filc_ptr, size_t);",
    "void zrun_deferred_global_ctors();",
    "void zprint(filc_ptr);",
    "void zprint_long(long);",
    "void zprint_ptr(filc_ptr);",
    "size_t zstrlen(filc_ptr);",
    "int zisdigit(int);",
    "void zerror(filc_ptr);",
    "void zfence();",
    "void zstore_store_fence();",
    "void zcompiler_fence();",
    "bool zunfenced_weak_cas_ptr(filc_ptr, filc_ptr, filc_ptr);",
    "bool zweak_cas_ptr(filc_ptr, filc_ptr, filc_ptr);",
    "filc_ptr zunfenced_strong_cas_ptr(filc_ptr, filc_ptr, filc_ptr);",
    "filc_ptr zstrong_cas_ptr(filc_ptr, filc_ptr, filc_ptr);",
    "filc_ptr zunfenced_xchg_ptr(filc_ptr, filc_ptr);",
    "filc_ptr zxchg_ptr(filc_ptr, filc_ptr);",
    "void zatomic_store_ptr(filc_ptr, filc_ptr);",
    "void zunfenced_atomic_store_ptr(filc_ptr, filc_ptr);",
    "filc_ptr zatomic_load_ptr(filc_ptr);",
    "filc_ptr zunfenced_atomic_load_ptr(filc_ptr);",
    "int zpark_if(filc_ptr, filc_ptr, filc_ptr, filc_ptr, double);",
    "void zunpark_one(filc_ptr, filc_ptr, filc_ptr);",
    "unsigned zunpark(filc_ptr, unsigned);",
    "bool zis_runtime_testing_enabled();",
    "void zvalidate_ptr(filc_ptr);",
    "void zgc_request_and_wait();",
    "void zscavenge_synchronously();",
    "void zscavenger_suspend();",
    "void zscavenger_resume();",
    "void zstack_scan(filc_ptr, filc_ptr);",
    "throws int _Unwind_RaiseException(filc_ptr);",
    "void zlongjmp(filc_ptr, int);",
    "void z_longjmp(filc_ptr, int);",
    "void zsiglongjmp(filc_ptr, int);",
    "void zregister_sys_errno_handler(filc_ptr);",
    "void zregister_sys_dlerror_handler(filc_ptr);",
    "int zsys_ioctl(int, unsigned long, ...);",
    "ssize_t zsys_writev(int, filc_ptr, int);",
    "ssize_t zsys_read(int, filc_ptr, size_t);",
    "ssize_t zsys_readv(int, filc_ptr, int);",
    "ssize_t zsys_write(int, filc_ptr, size_t);",
    "int zsys_close(int);",
    "long zsys_lseek(int, long, int);",
    "void zsys_exit(int);",
    "unsigned zsys_getuid();",
    "unsigned zsys_geteuid();",
    "unsigned zsys_getgid();",
    "unsigned zsys_getegid();",
    "int zsys_open(filc_ptr, int, ...);",
    "int zsys_getpid();",
    "int zsys_clock_gettime(int, filc_ptr);",
    "int zsys_fstatat(int, filc_ptr, filc_ptr, int);",
    "int zsys_fstat(int, filc_ptr);",
    "int zsys_fcntl(int, int, ...);",
    "int zsys_sigaction(int, filc_ptr, filc_ptr);",
    "int zsys_pipe(filc_ptr);",
    "int zsys_select(int, filc_ptr, filc_ptr, filc_ptr, filc_ptr);",
    "void zsys_sched_yield();",
    "int zsys_socket(int, int, int);",
    "int zsys_setsockopt(int, int, int, filc_ptr, unsigned);",
    "int zsys_bind(int, filc_ptr, unsigned);",
    "int zsys_connect(int, filc_ptr, unsigned);",
    "int zsys_getsockname(int, filc_ptr, filc_ptr);",
    "int zsys_getsockopt(int, int, int, filc_ptr, filc_ptr);",
    "int zsys_getpeername(int, filc_ptr, filc_ptr);",
    "ssize_t zsys_sendto(int, filc_ptr, size_t, int, filc_ptr, unsigned);",
    "ssize_t zsys_recvfrom(int, filc_ptr, size_t, int, filc_ptr, filc_ptr);",
    "int zsys_getrlimit(int, filc_ptr);",
    "unsigned zsys_umask(unsigned);",
    "int zsys_getitimer(int, filc_ptr);",
    "int zsys_setitimer(int, filc_ptr, filc_ptr);",
    "int zsys_pause();",
    "int zsys_pselect(int, filc_ptr, filc_ptr, filc_ptr, filc_ptr, filc_ptr);",
    "int zsys_getpeereid(int, filc_ptr, filc_ptr);",
    "int zsys_kill(int, int);",
    "int zsys_raise(int);",
    "int zsys_dup(int);",
    "int zsys_dup2(int, int);",
    "int zsys_sigprocmask(int, filc_ptr, filc_ptr);",
    "int zsys_chdir(filc_ptr);",
    "int zsys_fork();",
    "int zsys_waitpid(int, filc_ptr, int);",
    "int zsys_listen(int, int);",
    "int zsys_accept(int, filc_ptr, filc_ptr);",
    "int zsys_socketpair(int, int, int, filc_ptr);",
    "int zsys_setsid();",
    "int zsys_execve(filc_ptr, filc_ptr, filc_ptr);",
    "int zsys_getppid();",
    "int zsys_chroot(filc_ptr);",
    "int zsys_setuid(unsigned);",
    "int zsys_seteuid(unsigned);",
    "int zsys_setreuid(unsigned, unsigned);",
    "int zsys_setgid(unsigned);",
    "int zsys_setegid(unsigned);",
    "int zsys_setregid(unsigned, unsigned);",
    "int zsys_nanosleep(filc_ptr, filc_ptr);",
    "long zsys_readlink(filc_ptr, filc_ptr, size_t);",
    "int zsys_chown(filc_ptr, unsigned, unsigned);",
    "int zsys_lchown(filc_ptr, unsigned, unsigned);",
    "ssize_t zsys_sendmsg(int, filc_ptr, int);",
    "ssize_t zsys_recvmsg(int, filc_ptr, int);",
    "int zsys_rename(filc_ptr, filc_ptr);",
    "int zsys_unlink(filc_ptr);",
    "int zsys_link(filc_ptr, filc_ptr);",
    "filc_ptr zsys_mmap(filc_ptr, size_t, int, int, int, long);",
    "int zsys_munmap(filc_ptr, size_t);",
    "int zsys_ftruncate(int, long);",
    "filc_ptr zsys_getcwd(filc_ptr, size_t);",
    "filc_ptr zsys_dlopen(filc_ptr, int);",
    "filc_ptr zsys_dlsym(filc_ptr, filc_ptr);",
    "int zsys_poll(filc_ptr, unsigned long, int);",
    "int zsys_faccessat(int, filc_ptr, int, int);",
    "int zsys_sigwait(filc_ptr, filc_ptr);",
    "int zsys_fsync(int);",
    "int zsys_shutdown(int, int);",
    "int zsys_rmdir(filc_ptr);",
    "int zsys_futimens(int, filc_ptr);",
    "int zsys_utimensat(int, filc_ptr, filc_ptr, int);",
    "int zsys_fchown(int, unsigned, unsigned);",
    "int zsys_fchownat(int, filc_ptr, unsigned, unsigned, int);",
    "int zsys_fchdir(int);",
    "void zsys_sync();",
    "int zsys_access(filc_ptr, int);",
    "int zsys_symlink(filc_ptr, filc_ptr);",
    "int zsys_mprotect(filc_ptr, size_t, int);",
    "int zsys_getgroups(int, filc_ptr);",
    "int zsys_getpgrp();",
    "int zsys_getpgid(int);",
    "int zsys_setpgid(int, int);",
    "long zsys_pread(int, filc_ptr, size_t, long);",
    "long zsys_preadv(int, filc_ptr, int, long);",
    "long zsys_pwrite(int, filc_ptr, size_t, long);",
    "long zsys_pwritev(int, filc_ptr, int, long);",
    "int zsys_getsid(int);",
    "int zsys_mlock(filc_ptr, size_t);",
    "int zsys_munlock(filc_ptr, size_t);",
    "int zsys_mlockall(int);",
    "int zsys_munlockall();",
    "int zsys_sigpending(filc_ptr);",
    "int zsys_truncate(filc_ptr, long);",
    "int zsys_linkat(int, filc_ptr, int, filc_ptr, int);",
    "int zsys_chmod(filc_ptr, pizlonated_mode_t);",
    "int zsys_lchmod(filc_ptr, pizlonated_mode_t);",
    "int zsys_fchmod(int, pizlonated_mode_t);",
    "int zsys_mkfifo(filc_ptr, pizlonated_mode_t);",
    "int zsys_mkdirat(int, filc_ptr, pizlonated_mode_t);",
    "int zsys_mkdir(filc_ptr, pizlonated_mode_t);",
    "int zsys_fchmodat(int, filc_ptr, pizlonated_mode_t, int);",
    "int zsys_unlinkat(int, filc_ptr, int);",
    "filc_ptr zthread_self();",
    "unsigned zthread_get_id(filc_ptr);",
    "unsigned zthread_self_id();",
    "filc_ptr zthread_get_cookie(filc_ptr);",
    "void zthread_set_self_cookie(filc_ptr);",
    "filc_ptr zthread_create(filc_ptr, filc_ptr);",
    "bool zthread_join(filc_ptr, filc_ptr);",
    "if FILC_MUSL \x7b",
    "    filc_ptr zsys_getpwuid(unsigned);",
    "    int zsys_isatty(int);",
    "    int zsys_getaddrinfo(filc_ptr, filc_ptr, filc_ptr, filc_ptr);",
    "    int zsys_uname(filc_ptr);",
    "    filc_ptr zsys_getpwnam(filc_ptr);",
    "    int zsys_setgroups(size_t, filc_ptr);",
    "    filc_ptr zsys_opendir(filc_ptr);",
    "    filc_ptr zsys_fdopendir(int);",
    "    int zsys_closedir(filc_ptr);",
    "    filc_ptr zsys_readdir(filc_ptr);",
    "    void zsys_rewinddir(filc_ptr);",
    "    void zsys_seekdir(filc_ptr, long);",
    "    long zsys_telldir(filc_ptr);",
    "    int zsys_dirfd(filc_ptr);",
    "    void zsys_closelog();",
    "    void zsys_openlog(filc_ptr, int, int);",
    "    int zsys_setlogmask(int);",
    "    void zsys_syslog(int, filc_ptr);",
    "    int zsys_getgrouplist(filc_ptr, unsigned, filc_ptr, filc_ptr);",
    "    int zsys_initgroups(filc_ptr, unsigned);",
    "    int zsys_openpty(filc_ptr, filc_ptr, filc_ptr, filc_ptr, filc_ptr);",
    "    int zsys_ttyname_r(int, filc_ptr, size_t);",
    "    filc_ptr zsys_getgrnam(filc_ptr);",
    "    void zsys_endutxent();",
    "    filc_ptr zsys_getutxent();",
    "    filc_ptr zsys_getutxid(filc_ptr);",
    "    filc_ptr zsys_getutxline(filc_ptr);",
    "    filc_ptr zsys_pututxline(filc_ptr);",
    "    void zsys_setutxent();",
    "    filc_ptr zsys_getlastlogx(unsigned, filc_ptr);",
    "    filc_ptr zsys_getlastlogxbyname(filc_ptr, filc_ptr);",
    "    long zsys_sysconf_override(int);",
    "    int zsys_numcores();",
    "    int zsys_getentropy(filc_ptr, size_t);",
    "    int zsys_posix_spawn(filc_ptr, filc_ptr, filc_ptr, filc_ptr, filc_ptr, filc_ptr);",
    "    int zsys_posix_spawnp(filc_ptr, filc_ptr, filc_ptr, filc_ptr, filc_ptr, filc_ptr);",
    "\x7d",
    "if FILC_FILBSD \x7b",
    "    int zsys_unmount(filc_ptr, int);",
    "    int zsys_nmount(filc_ptr, unsigned, int);",
    "    int zsys_chflags(filc_ptr, unsigned long);",
    "    int zsys_lchflags(filc_ptr, unsigned long);",
    "    int zsys_fchflags(int, unsigned long);",
    "    int zsys_chflagsat(int, filc_ptr, unsigned long, int);",
    "    int zsys_profil(filc_ptr, size_t, unsigned long, int);",
    "    int zsys_setlogin(filc_ptr);",
    "    int zsys_acct(filc_ptr);",
    "    int zsys_reboot(int);",
    "    int zsys_revoke(filc_ptr);",
    "    int zsys_ktrace(filc_ptr, int, int, int);",
    "    int zsys_setgroups(int, filc_ptr);",
    "    int zsys_madvise(filc_ptr, size_t, int);",
    "    int zsys_mincore(filc_ptr, size_t, filc_ptr);",
    "    int zsys_swapon(filc_ptr);",
    "    int zsys_swapoff(filc_ptr, unsigned);",
    "    int zsys_getdtablesize();",
    "    int zsys_getpriority(int, int);",
    "    int zsys_setpriority(int, int, int);",
    "    int zsys_gettimeofday(filc_ptr, filc_ptr);",
    "    int zsys_settimeofday(filc_ptr, filc_ptr);",
    "    int zsys_getrusage(int, filc_ptr);",
    "    int zsys_flock(int, int);",
    "    int zsys_utimes(filc_ptr, filc_ptr);",
    "    int zsys_lutimes(filc_ptr, filc_ptr);",
    "    int zsys_adjtime(filc_ptr, filc_ptr);",
    "    int zsys_quotactl(filc_ptr, int, int, filc_ptr);",
    "    int zsys_nlm_syscall(int, int, int, filc_ptr);",
    "    int zsys_nfssvc(int, filc_ptr);",
    "    int zsys_rtprio(int, int, filc_ptr);",
    "    int zsys_rtprio_thread(int, int, filc_ptr);",
    "    int zsys_getfh(filc_ptr, filc_ptr);",
    "    int zsys_lgetfh(filc_ptr, filc_ptr);",
    "    int zsys_getfhat(int, filc_ptr, filc_ptr, int);",
    "    int zsys_setfib(int);",
    "    int zsys_ntp_adjtime(filc_ptr);",
    "    int zsys_ntp_gettime(filc_ptr);",
    "    long zsys_pathconf(filc_ptr, int);",
    "    long zsys_lpathconf(filc_ptr, int);",
    "    long zsys_fpathconf(int, int);",
    "    int zsys_setrlimit(int, filc_ptr);",
    "    int zsys___sysctl(filc_ptr, unsigned, filc_ptr, filc_ptr, filc_ptr, size_t);",
    "    int zsys_undelete(filc_ptr);",
    "    int zsys_semget(long, int, int);",
    "    int zsys_semctl(int, int, int, ...);",
    "    int zsys_semop(int, filc_ptr, size_t);",
    "    int zsys_shmget(long, size_t, int);",
    "    int zsys_shmctl(int, int, filc_ptr);",
    "    filc_ptr zsys_shmat(int, filc_ptr, int);",
    "    int zsys_shmdt(filc_ptr);",
    "    int zsys_msgget(long, int);",
    "    int zsys_msgctl(int, int, filc_ptr);",
    "    long zsys_msgrcv(int, filc_ptr, size_t, long, int);",
    "    int zsys_msgsnd(int, filc_ptr, size_t, int);",
    "    int zsys_futimes(int, filc_ptr);",
    "    int zsys_ktimer_create(int, filc_ptr, filc_ptr);",
    "    int zsys_clock_settime(int, filc_ptr);",
    "    int zsys_clock_getres(int, filc_ptr);",
    "    int zsys_ktimer_delete(int);",
    "    int zsys_ktimer_gettime(int, filc_ptr);",
    "    int zsys_ktimer_getoverrun(int);",
    "    int zsys_ktimer_settime(int, int, filc_ptr, filc_ptr);",
    "    int zsys_ffclock_getcounter(filc_ptr);",
    "    int zsys_ffclock_getestimate(filc_ptr);",
    "    int zsys_ffclock_setestimate(filc_ptr);",
    "    int zsys_getcpuclockid2(long long, int, filc_ptr);",
    "    int zsys_minherit(filc_ptr, size_t, int);",
    "    int zsys_issetugid();",
    "    int zsys_aio_read(filc_ptr);",
    "    int zsys_aio_readv(filc_ptr);",
    "    int zsys_aio_write(filc_ptr);",
    "    int zsys_aio_writev(filc_ptr);",
    "    int zsys_lio_listio(int, filc_ptr, int, filc_ptr);",
    "    int zsys_aio_return(filc_ptr);",
    "    int zsys_aio_suspend(filc_ptr, int, filc_ptr);",
    "    int zsys_aio_errr(filc_ptr);",
    "    int zsys_aio_cancel(int, filc_ptr);",
    "    long zsys_aio_waitcomplete(filc_ptr, filc_ptr);",
    "    int zsys_aio_fsync(int, filc_ptr);",
    "    int zsys_aio_mlock(filc_ptr);",
    "    int zsys_fhopen(filc_ptr, int);",
    "    int zsys_fhstat(filc_ptr, filc_ptr);",
    "    int zsys_fhstatfs(filc_ptr, filc_ptr);",
    "    int zsys_modnext(int);",
    "    int zsys_modfnext(int);",
    "    int zsys_modstat(int, filc_ptr);",
    "    int zsys_modfind(filc_ptr);",
    "    int zsys_kldload(filc_ptr);",
    "    int zsys_kldunload(int);",
    "    int zsys_kldunloadf(int, int);",
    "    int zsys_kldfind(filc_ptr);",
    "    int zsys_kldnext(int);",
    "    int zsys_getresgid(filc_ptr, filc_ptr, filc_ptr);",
    "    int zsys_getresuid(filc_ptr, filc_ptr, filc_ptr);",
    "    int zsys_setresgid(unsigned, unsigned, unsigned);",
    "    int zsys_setresuid(unsigned, unsigned, unsigned);",
    "    int zsys_kldfirstmod(int);",
    "    int zsys_kldstat(int, filc_ptr);",
    "    int zsys___getcwd(filc_ptr, size_t);",
    "    int zsys_sched_setparam(int, filc_ptr);",
    "    int zsys_sched_getparam(int, filc_ptr);",
    "    int zsys_sched_setscheduler(int, int, filc_ptr);",
    "    int zsys_sched_getscheduler(int);",
    "    int zsys_sched_get_priority_min(int);",
    "    int zsys_sched_get_priority_max(int);",
    "    int zsys_sched_rr_get_interval(int, filc_ptr);",
    "    int zsys_utrace(filc_ptr, size_t);",
    "    int zsys_kldsym(int, int, filc_ptr);",
    "    int zsys_jail(filc_ptr);",
    "    int zsys_jail_attach(int);",
    "    int zsys_jail_detach(int);",
    "    int zsys_jail_get(filc_ptr, unsigned, int);",
    "    int zsys_jail_set(filc_ptr, unsigned, int);",
    "    int zsys___acl_aclcheck_fd(int, int, filc_ptr);",
    "    int zsys___acl_aclcheck_file(filc_ptr, int, filc_ptr);",
    "    int zsys___acl_aclcheck_link(filc_ptr, int, filc_ptr);",
    "    int zsys___acl_delete_fd(int, int);",
    "    int zsys___acl_delete_file(filc_ptr, int);",
    "    int zsys___acl_delete_link(filc_ptr, int);",
    "    int zsys___acl_get_fd(int, int, filc_ptr);",
    "    int zsys___acl_get_file(filc_ptr, int, filc_ptr);",
    "    int zsys___acl_get_link(filc_ptr, int, filc_ptr);",
    "    int zsys___acl_set_fd(int, int, filc_ptr);",
    "    int zsys___acl_set_file(filc_ptr, int, filc_ptr);",
    "    int zsys___acl_set_link(filc_ptr, int, filc_ptr);",
    "    int zsys_extattr_delete_fd(int, int, filc_ptr);",
    "    int zsys_extattr_delete_file(filc_ptr, int, filc_ptr);",
    "    int zsys_extattr_delete_link(filc_ptr, int, filc_ptr);",
    "    long zsys_extattr_get_fd(int, int, filc_ptr, filc_ptr, size_t);",
    "    long zsys_extattr_get_file(filc_ptr, int, filc_ptr, filc_ptr, size_t);",
    "    long zsys_extattr_get_link(filc_ptr, int, filc_ptr, filc_ptr, size_t);",
    "    long zsys_extattr_list_fd(int, int, filc_ptr, size_t);",
    "    long zsys_extattr_list_file(filc_ptr, int, filc_ptr, size_t);",
    "    long zsys_extattr_list_link(filc_ptr, int, filc_ptr, size_t);",
    "    long zsys_extattr_set_fd(int, int, filc_ptr, filc_ptr, size_t);",
    "    long zsys_extattr_set_file(filc_ptr, int, filc_ptr, filc_ptr, size_t);",
    "    long zsys_extattr_set_link(filc_ptr, int, filc_ptr, filc_ptr, size_t);",
    "    int zsys_extattrctl(filc_ptr, int, filc_ptr, int, filc_ptr);",
    "    int zsys_kqueue();",
    "    int zsys_kqueuex(unsigned);",
    "    int zsys_kevent(int, filc_ptr, int, filc_ptr, int, filc_ptr);",
    "    int zsys___mac_get_fd(int, filc_ptr);",
    "    int zsys___mac_get_file(filc_ptr, filc_ptr);",
    "    int zsys___mac_get_link(filc_ptr, filc_ptr);",
    "    int zsys___mac_get_pid(int, filc_ptr);",
    "    int zsys___mac_get_proc(filc_ptr);",
    "    int zsys___mac_set_fd(int, filc_ptr);",
    "    int zsys___mac_set_file(filc_ptr, filc_ptr);",
    "    int zsys___mac_set_link(filc_ptr, filc_ptr);",
    "    int zsys___mac_set_proc(filc_ptr);",
    "    int zsys___mac_execve(filc_ptr, filc_ptr, filc_ptr, filc_ptr);",
    "    int zsys_eaccess(filc_ptr, int);",
    "    int zsys_mac_syscall(filc_ptr, int, filc_ptr);",
    "    int zsys_sendfile(int, int, long, size_t, filc_ptr, filc_ptr, int);",
    "    int zsys_uuidgen(filc_ptr, int);",
    "    int zsys_kenv(int, filc_ptr, filc_ptr, int);",
    "    int zsys___setugid(int);",
    "    int zsys_ksem_close(long);",
    "    int zsys_ksem_post(long);",
    "    int zsys_ksem_wait(long);",
    "    int zsys_ksem_trywait(long);",
    "    int zsys_ksem_timedwait(long, filc_ptr);",
    "    int zsys_ksem_init(filc_ptr, unsigned);",
    "    int zsys_ksem_open(filc_ptr, filc_ptr, int, unsigned short, unsigned);",
    "    int zsys_ksem_unlink(filc_ptr);",
    "    int zsys_ksem_getvalue(long, filc_ptr);",
    "    int zsys_ksem_destroy(long);",
    "    int zsys_audit(filc_ptr, int);",
    "    int zsys_auditon(int, filc_ptr, int);",
    "    int zsys_auditctl(filc_ptr);",
    "    int zsys_getauid(filc_ptr);",
    "    int zsys_setauid(filc_ptr);",
    "    int zsys_getaudit(filc_ptr);",
    "    int zsys_setaudit(filc_ptr);",
    "    int zsys_getaudit_addr(filc_ptr, int);",
    "    int zsys_setaudit_addr(filc_ptr, int);",
    "    int zsys_kmq_notify(int, filc_ptr);",
    "    int zsys_kmq_open(filc_ptr, int, unsigned short, filc_ptr);",
    "    int zsys_kmq_setattr(int, filc_ptr, filc_ptr);",
    "    long zsys_kmq_timedreceive(int, filc_ptr, size_t, filc_ptr, filc_ptr);",
    "    int zsys_kmq_timedsend(int, filc_ptr, size_t, unsigned, filc_ptr);",
    "    int zsys_kmq_unlink(filc_ptr);",
    "    int zsys__umtx_op(filc_ptr, int, unsigned long, filc_ptr, filc_ptr);",
    "    void zsys_abort2(filc_ptr, int, filc_ptr);",
    "    int zsys_futimesat(int, filc_ptr, filc_ptr);",
    "    int zsys_fexecve(int, filc_ptr, filc_ptr);",
    "    int zsys_cpuset_getaffinity(int, int, long long, size_t, filc_ptr);",
    "    int zsys_cpuset_setaffinity(int, int, long long, size_t, filc_ptr);",
    "    int zsys_cpuset(filc_ptr);",
    "    int zsys_cpuset_setid(int, long long, int);",
    "    int zsys_cpuset_getid(int, int, long long, filc_ptr);",
    "\x7d" ]

def text : String := String.join (lines.map (· ++ "\n"))

/-- The native entry points. -/
def signatures : Except TableError (List Signature) := parse text

end CapFixture.Table.Native
